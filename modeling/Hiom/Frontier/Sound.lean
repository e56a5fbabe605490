import Hiom.Frontier.Accounts

/-!
Why the frontier is sound, as far as it is. A record is covered by its client's
announced block until the client has registered it, and by the pending ring
from then until it is in the cold tier; the checkpoint reads the slots first
and the ring last. What neither covers is a client that owns a block and has
not announced it when its slot is read, and a client that is given a block below
a frontier that was found in the checkpoint file.
-/

namespace Hiom.Frontier

/-- What the other parties do to the blocks while the checkpoint is at work, where
a new client comes only if one `opens`. -/
structure Flows (opens : Prop) (state next : State) : Prop where
  viper_next : state.viper_next ≤ next.viper_next
  created : state.created ≤ next.created
  clients : ∀ id d, next.clients id = some d →
    (∃ c, state.clients id = some c ∧ c.block ≤ d.block) ∨
      (opens ∧ state.created ≤ id ∧ state.viper_next ≤ d.block)
  buffer : ∀ e ∈ next.buffer,
    e ∈ state.buffer ∨ ∃ id c, state.clients id = some c ∧ e.block = c.block
  checkpoint : next.checkpoint = state.checkpoint
  seen : next.seen = state.seen
  late : next.late = state.late
  frontier : next.frontier = state.frontier

variable {state next : State} {opens : Prop}

theorem flows_at {id block : Nat} {stage : Stage} {c : Client}
    (present : state.clients id = some c) (grown : c.block ≤ block) :
    ∀ other d, Function.update state.clients id (some ⟨block, stage⟩) other = some d →
      (∃ c, state.clients other = some c ∧ c.block ≤ d.block) ∨
        (opens ∧ state.created ≤ other ∧ state.viper_next ≤ d.block) := by
  apply forall_update
  · exact .inl ⟨c, present, grown⟩
  · exact fun other d _ present_other => .inl ⟨d, present_other, le_rfl⟩

theorem flows_client {id : Nat} (accounted : Accounted state)
    (stepped : state.client_step id = some next) : Flows opens state next := by
  simp only [State.client_step] at stepped
  cases present : state.clients id with
  | none =>
      rw [present] at stepped
      cases stepped
  | some c =>
      obtain ⟨block, stage⟩ := c
      rw [present] at stepped
      have same : ∀ stage, ∀ other d,
          Function.update state.clients id (some ⟨block, stage⟩) other = some d →
          (∃ c, state.clients other = some c ∧ c.block ≤ d.block) ∨
            (opens ∧ state.created ≤ other ∧ state.viper_next ≤ d.block) :=
        fun stage => flows_at present le_rfl
      cases stage with
      | reserving idx =>
          dsimp only at stepped
          split at stepped
          · split at stepped <;> cases stepped <;>
              exact ⟨le_rfl, le_rfl, same _, fun _ => .inl, rfl, rfl, rfl, rfl⟩
          · cases stepped
      | noted slot e =>
          dsimp only at stepped
          split at stepped
          · cases stepped
          · cases stepped
            exact ⟨le_rfl, le_rfl, same _, fun _ => .inl, rfl, rfl, rfl, rfl⟩
      | registered slot e =>
          cases stepped
          refine ⟨le_rfl, le_rfl, same _, fun other member => ?_, rfl, rfl, rfl, rfl⟩
          rcases List.mem_append.mp member with before | here
          · exact .inl before
          · rw [List.mem_singleton.mp here]
            exact .inr ⟨id, _, present, (accounted.clients id _ present).written e rfl⟩
      | ready slot => cases stepped
      | _ =>
          cases stepped
          exact ⟨le_rfl, le_rfl, same _, fun _ => .inl, rfl, rfl, rfl, rfl⟩

theorem flows_step {action : Action} (accounted : Accounted state)
    (stepped : state.step action = some next) (other : action ≠ .checkpoint) :
    Flows (action = .get_client) state next := by
  cases action with
  | get_client =>
      cases stepped
      refine ⟨Nat.le_succ _, Nat.le_succ _, ?_, fun _ => .inl, rfl, rfl, rfl, rfl⟩
      apply forall_update
      · exact .inr ⟨rfl, le_rfl, le_rfl⟩
      · exact fun id d _ present => .inl ⟨d, present, le_rfl⟩
  | put id key =>
      simp only [State.step] at stepped
      split at stepped
      · rename_i block slot present
        split at stepped
        · cases stepped
        · cases stepped
          exact ⟨le_rfl, le_rfl, flows_at present le_rfl, fun _ => .inl, rfl, rfl, rfl, rfl⟩
      · cases stepped
  | claim_block id =>
      simp only [State.step] at stepped
      split at stepped
      · rename_i block slot key present
        cases stepped
        exact ⟨Nat.le_succ _, le_rfl,
          flows_at present (accounted.clients id _ present).bounded.le, fun _ => .inl, rfl, rfl, rfl, rfl⟩
      · cases stepped
  | client id => exact flows_client accounted stepped
  | destroy id =>
      simp only [State.step] at stepped
      split at stepped
      · cases stepped
        exact ⟨le_rfl, le_rfl, fun other d present => .inl ⟨d, (remaining present).2, le_rfl⟩,
          fun _ => .inl, rfl, rfl, rfl, rfl⟩
      · cases stepped
  | apply e =>
      simp only [State.step] at stepped
      split at stepped
      · cases stepped
        exact ⟨le_rfl, le_rfl, fun id d present => .inl ⟨d, present, le_rfl⟩,
          fun _ member => .inl (List.mem_of_mem_erase member), rfl, rfl, rfl, rfl⟩
      · cases stepped
  | retire e =>
      simp only [State.step] at stepped
      split at stepped
      · split at stepped
        · cases stepped
        · cases stepped
          exact ⟨le_rfl, le_rfl, fun id d present => .inl ⟨d, present, le_rfl⟩, fun _ => .inl, rfl,
            rfl, rfl, rfl⟩
      · cases stepped
  | checkpoint => exact absurd rfl other

def Owned (clients : Nat → Option Client) (high : Nat → Prop) : Prop :=
  ∀ id c, clients id = some c → high c.block

theorem Owned.flows {high : Nat → Prop} (owned : Owned state.clients high)
    (flows : Flows opens state next)
    (grows : ∀ block later, block ≤ later → high block → high later)
    (given : opens → ∀ block, state.viper_next ≤ block → high block) :
    Owned next.clients high := by
  intro id d present
  rcases flows.clients id d present with ⟨c, before, grown⟩ | ⟨open_, -, beyond⟩
  · exact grows _ _ grown (owned id c before)
  · exact given open_ _ beyond

def State.Clear (state : State) (bound block : Nat) : Prop :=
  bound ≤ block + 1 ∨ ∃ id late, state.late id = some late ∧ late ≤ block

theorem Clear.grows {bound : Nat} (block later : Nat) (grown : block ≤ later)
    (clear : state.Clear bound block) : state.Clear bound later := by
  rcases clear with above | ⟨id, late, owned, below⟩
  · exact .inl (by omega)
  · exact .inr ⟨id, late, owned, below.trans grown⟩

def Covered (state : State) (m : Nat) : Prop :=
  ∀ id c, state.clients id = some c → state.seen id = true → m ≤ c.block

/-- What a checkpoint knows in each of its phases. In the last one an entry
that is not clear of the other bounds still has its ring slot ahead, or the slot
has shown it. -/
def State.Scanned (state : State) : Prop :=
  match state.checkpoint with
  | .idle => True
  | .slot_active _ m | .slot_last _ m | .slot_inflight _ m _ => Covered state m
  | .ring idx m viper_next min_b =>
      viper_next ≤ state.viper_next ∧ Owned state.clients (state.Clear (min m viper_next)) ∧
        ∀ e ∈ state.buffer, state.Clear (min m viper_next) e.block ∨ idx ≤ slot_of e.block ∨
          min_b ≤ e.block

structure Covering (state : State) : Prop extends Accounted state where
  seen : ∀ id, state.seen id = true → id < state.created
  scanned : state.Scanned
  frontier : ∀ frontier_block, state.frontier = some frontier_block →
    Owned state.clients (fun block => frontier_block ≤ block + 1) ∧
      ∀ e ∈ state.buffer, frontier_block ≤ e.block + 1

/-- A client is given no block that lies below the one from which recovery would
start. And no client that had not announced a block when the checkpoint read its
slot owned one, when Viper's next block was read, that lies below the minimum
that is written (but for the one block that recovery goes back). -/
def AnnouncedInTime (state : State) : Action → Prop
  | .get_client => state.start_block ≤ state.viper_next
  | .checkpoint =>
      match state.checkpoint with
      | .ring idx m viper_next min_b =>
          idx < kWindow ∨ ∀ id block, state.late id = some block →
            min (min m viper_next) min_b ≤ block + 1
      | _ => True
  | _ => True

theorem State.start_block_lt {frontier_block : Nat} (written : state.frontier = some frontier_block) :
    frontier_block ≤ state.start_block + 1 := by
  unfold State.start_block
  rw [written]
  dsimp only
  split <;> omega

theorem Covering.flows (covering : Covering state) (flows : Flows opens state next)
    (given : opens → state.start_block ≤ state.viper_next) (accounted : Accounted next) :
    Covering next where
  toAccounted := accounted
  seen := by
    intro id seen
    rw [flows.seen] at seen
    exact (covering.seen id seen).trans_le flows.created
  scanned := by
    have covered : ∀ {m}, Covered state m → Covered next m := by
      intro m covered id d present seen
      rw [flows.seen] at seen
      rcases flows.clients id d present with ⟨c, before, grown⟩ | ⟨-, new, -⟩
      · exact (covered id c before seen).trans grown
      · exact absurd (covering.seen id seen) (Nat.not_lt.mpr new)
    have clear : ∀ {bound block}, next.Clear bound block ↔ state.Clear bound block := by
      intro bound block
      unfold State.Clear
      rw [flows.late]
    have scanned := covering.scanned
    simp only [State.Scanned, flows.checkpoint] at scanned ⊢
    split at scanned
    · trivial
    · exact covered scanned
    · exact covered scanned
    · exact covered scanned
    · obtain ⟨read, owned, pending⟩ := scanned
      have still := owned.flows flows Clear.grows
        (fun _ block beyond => .inl (by omega))
      refine ⟨read.trans flows.viper_next, fun id c present => clear.mpr (still id c present),
        fun e member => ?_⟩
      rw [clear]
      rcases flows.buffer e member with before | ⟨id, c, present, same⟩
      · exact pending e before
      · rw [same]
        exact .inl (owned id c present)
  frontier := by
    intro frontier_block written
    rw [flows.frontier] at written
    obtain ⟨owned, flushed⟩ := covering.frontier frontier_block written
    have start := State.start_block_lt written
    have still := owned.flows flows (fun _ _ grown above => by omega)
      (fun opened block beyond => by
        have below := given opened
        omega)
    refine ⟨still, fun e member => ?_⟩
    rcases flows.buffer e member with before | ⟨id, c, present, same⟩
    · exact flushed e before
    · rw [same]
      exact owned id c present

/-- The load of `inflight_block`: its owner, if it has announced, owns no lower
block. -/
theorem covered_inflight {idx m lb : Nat} (accounted : Accounted state)
    (covered : Covered state m) {id : Nat} {c : Client} (present : state.clients id = some c)
    (seen : (state.seen id || (c.stage.tracked == some idx &&
      (state.slots idx).inflight_block != kNoActiveBlock)) = true) :
    min m (min lb (state.slots idx).inflight_block) ≤ c.block := by
  simp only [Bool.or_eq_true, Bool.and_eq_true, beq_iff_eq, bne_iff_ne] at seen
  rcases seen with before | ⟨tracked, announced⟩
  · exact (min_le_left _ _).trans (covered id c present before)
  · have below := ((accounted.clients id c present).inflight idx tracked).resolve_left announced
    omega

/-- The load of a ring slot: a buffered entry that is counted there shows. -/
theorem shown_entry {e : CommitEntry} (accounted : Accounted state) (member : e ∈ state.buffer) :
    count_of (state.ring (slot_of e.block)) ≠ 0 ∧
      block_of (state.ring (slot_of e.block)) = e.block := by
  apply slot_of_counted
  obtain ⟨registered, -, total⟩ := accounted.pending e.block
  have counted : 0 < state.buffer.countP (·.block == e.block) :=
    List.countP_pos_iff.mpr ⟨e, member, by simp⟩
  omega

theorem Covering.checkpoint_step (covering : Covering state)
    (in_time : AnnouncedInTime state .checkpoint) : Covering state.checkpoint_step := by
  have accounted := covering.toAccounted.checkpoint
  have scanned := covering.scanned
  simp only [AnnouncedInTime] at in_time
  simp only [State.Scanned] at scanned
  simp only [State.checkpoint_step] at accounted ⊢
  split at accounted <;> rename_i stage <;> rw [stage] at scanned in_time
  · exact ⟨accounted, (fun _ seen => nomatch seen), (fun _ _ _ seen => nomatch seen),
      covering.frontier⟩
  · split at accounted
    · rename_i inside
      rw [if_pos inside]
      split at accounted <;> rename_i active
      · rw [if_pos active]
        exact ⟨accounted, covering.seen, scanned, covering.frontier⟩
      · rw [if_neg active]
        exact ⟨accounted, covering.seen, scanned, covering.frontier⟩
    · rename_i outside
      rw [if_neg outside]
      refine ⟨accounted, covering.seen, ⟨le_rfl, fun id c present => ?_,
        fun e _ => .inr (.inl (Nat.zero_le _))⟩, covering.frontier⟩
      have here : state.clients id = some c := present
      cases seen : state.seen id with
      | false =>
          refine .inr ⟨id, c.block, ?_, le_rfl⟩
          simp [seen, here]
      | true =>
          have covered := scanned id c here seen
          exact .inl (by omega)
  · exact ⟨accounted, covering.seen, scanned, covering.frontier⟩
  · refine ⟨accounted, fun id seen => ?_, fun id c present seen => ?_, covering.frontier⟩
    · simp only [Bool.or_eq_true] at seen
      rcases seen with before | owner
      · exact covering.seen id before
      · by_contra unused
        rw [covering.fresh id (Nat.le_of_not_lt unused)] at owner
        cases owner
    · dsimp only at present seen
      rw [present] at seen
      exact covered_inflight covering.toAccounted scanned present seen
  · rename_i idx m viper_next min_b
    obtain ⟨read, owned, pending⟩ := scanned
    split at accounted
    · rename_i inside
      rw [if_pos inside]
      split at accounted <;> rename_i count
      · rw [if_pos count]
        refine ⟨accounted, covering.seen, ⟨read, owned, fun e member => ?_⟩, covering.frontier⟩
        rcases pending e member with clear | ahead | shown
        · exact .inl clear
        · have different : idx ≠ slot_of e.block := by
            rintro rfl
            exact (shown_entry covering.toAccounted member).1 count
          exact .inr (.inl (by omega))
        · exact .inr (.inr shown)
      · rw [if_neg count]
        refine ⟨accounted, covering.seen, ⟨read, owned, fun e member => ?_⟩, covering.frontier⟩
        rcases pending e member with clear | ahead | shown
        · exact .inl clear
        · by_cases here : idx = slot_of e.block
          · subst here
            rw [(shown_entry covering.toAccounted member).2]
            exact .inr (.inr (min_le_right _ _))
          · exact .inr (.inl (by omega))
        · exact .inr (.inr ((min_le_left _ _).trans shown))
    · rename_i outside
      rw [if_neg outside]
      have late := in_time.resolve_left outside
      have high : ∀ {block}, state.Clear (min m viper_next) block →
          min (min m viper_next) min_b ≤ block + 1 := by
        intro block clear
        rcases clear with above | ⟨id, owned_late, was, below⟩
        · exact (min_le_left _ _).trans above
        · have bound := late id owned_late was
          omega
      refine ⟨accounted, covering.seen, trivial, ?_⟩
      rintro _ ⟨⟩
      refine ⟨fun id c present => high (owned id c present), fun e member => ?_⟩
      rcases pending e member with clear | ahead | shown
      · exact high clear
      · exact absurd (slot_of_lt e.block) (by omega)
      · exact (min_le_right _ _).trans (Nat.le_succ_of_le shown)

theorem Covering.step {action : Action} (covering : Covering state)
    (in_time : AnnouncedInTime state action) (stepped : state.step action = some next) :
    Covering next := by
  by_cases checkpoint : action = .checkpoint
  · subst checkpoint
    cases stepped
    exact covering.checkpoint_step in_time
  · apply covering.flows (flows_step covering.toAccounted stepped checkpoint)
    · rintro rfl
      exact in_time
    · exact covering.toAccounted.step stepped

/-- As long as no client is given a block below the start of recovery, and every
checkpoint finds the clients announced in time. -/
theorem frontier_sound (reached : machine.Reach AnnouncedInTime state) : FrontierSound state := by
  have covering : Covering state := by
    apply reached.invariant
    · rintro _ ⟨viper_next, frontier, rfl⟩
      refine ⟨opened_accounted viper_next frontier, (fun _ seen => nomatch seen), trivial, ?_⟩
      intro frontier_block written
      exact ⟨(fun _ _ present => nomatch present), (fun _ member => nomatch member)⟩
    · intro state action next covering in_time stepped
      exact covering.step in_time stepped
  intro e returned below
  refine (covering.returned e returned).resolve_right (fun buffered => ?_)
  rw [State.start_block] at below
  split at below
  · omega
  · rename_i frontier_block written
    have flushed := (covering.frontier frontier_block written).2 e buffered
    split at below <;> omega

/-! ### Two runs -/

def early (state : State) : Action → Bool
  | .get_client => state.start_block ≤ state.viper_next
  | .checkpoint =>
      match state.checkpoint with
      | .ring idx .. => idx < kWindow
      | _ => true
  | _ => true

theorem early_in_time (state : State) (action : Action) (passed : early state action = true) :
    AnnouncedInTime state action := by
  cases action with
  | get_client =>
      have above : state.start_block ≤ state.viper_next := of_decide_eq_true passed
      exact above
  | checkpoint =>
      simp only [early] at passed
      simp only [AnnouncedInTime]
      split at passed
      · exact .inl (of_decide_eq_true passed)
      · trivial
  | _ => trivial

theorem early_step (passed : early state .checkpoint = true) :
    (machine.checked early).step state .checkpoint = some state.checkpoint_step :=
  if_pos passed

/-- The scan of slots that no client has claimed. -/
theorem scan_slots {idx m : Nat} (unread : Nat) (stage : state.checkpoint = .slot_active idx m)
    (rest : idx + unread = kMaxClientSlots)
    (unclaimed : ∀ slot, idx ≤ slot → (state.slots slot).active = false) :
    (machine.checked early).run state (List.replicate unread .checkpoint) =
      some { state with checkpoint := .slot_active kMaxClientSlots m } := by
  induction unread generalizing state idx with
  | zero =>
      rw [Nat.add_zero] at rest
      rw [rest] at stage
      rw [← stage]
      rfl
  | succ unread ih =>
      have inside : idx < kMaxClientSlots := by omega
      have passed : early state .checkpoint = true := by simp only [early, stage]
      have stepped : state.checkpoint_step =
          { state with checkpoint := .slot_active (idx + 1) m } := by
        simp [State.checkpoint_step, stage, inside, unclaimed idx le_rfl]
      rw [List.replicate_succ, Machine.run, early_step passed, stepped]
      exact ih rfl (by omega) (fun slot above => unclaimed slot (by omega))

/-- The scan of ring slots that count for no block. -/
theorem scan_ring {idx m viper_next min_b : Nat} (unread : Nat)
    (stage : state.checkpoint = .ring idx m viper_next min_b) (rest : idx + unread = kWindow)
    (unused : ∀ slot, idx ≤ slot → count_of (state.ring slot) = 0) :
    (machine.checked early).run state (List.replicate unread .checkpoint) =
      some { state with checkpoint := .ring kWindow m viper_next min_b } := by
  induction unread generalizing state idx with
  | zero =>
      rw [Nat.add_zero] at rest
      rw [rest] at stage
      rw [← stage]
      rfl
  | succ unread ih =>
      have inside : idx < kWindow := by omega
      have passed : early state .checkpoint = true := by
        simp only [early, stage]
        exact decide_eq_true inside
      have stepped : state.checkpoint_step =
          { state with checkpoint := .ring (idx + 1) m viper_next min_b } := by
        simp [State.checkpoint_step, stage, inside, unused idx le_rfl]
      rw [List.replicate_succ, Machine.run, early_step passed, stepped]
      exact ih rfl (by omega) (fun slot above => unused slot (by omega))

def connect (id taken : Nat) : List Action :=
  .get_client :: List.replicate (taken + 3) (.client id)

def put_record (id key : Nat) : List Action :=
  .put id key :: List.replicate 5 (.client id)

theorem put_record_run {id block slot : Nat} {ring : PendingBlocks} (key : Nat)
    (present : state.clients id = some ⟨block, .ready slot⟩) (fresh : key ∉ state.keys)
    (registered : pending_register state.ring block = some ring) :
    ∃ next, machine.run state (put_record id key) = some next ∧
      next.returned = state.returned ++ [⟨key, block⟩] ∧ next.cold = state.cold ∧
      next.frontier = state.frontier := by
  simp [put_record, List.replicate, Machine.run, machine, State.step, State.client_step, State.at,
    State.set_slot, present, fresh, registered]

def read_ring : List Action := List.replicate kWindow .checkpoint

/-- The write of a checkpoint that has found nothing pending. -/
theorem write_step {m viper_next min_b : Nat}
    (stage : state.checkpoint = .ring kWindow m viper_next min_b) :
    state.checkpoint_step = { state with
      checkpoint := .idle
      frontier := some (min (min m viper_next) min_b) } := by
  simp [State.checkpoint_step, stage]

/-- Two clients own blocks 0 and 1 when a checkpoint runs; neither has put
anything. It publishes block 2, and then the first client puts into block 0. -/
def idle_clients : List Action :=
  (connect 0 0 ++ connect 1 1 ++ List.replicate 7 .checkpoint) ++
    (List.replicate (kMaxClientSlots - 2) .checkpoint ++
      ([.checkpoint] ++ (read_ring ++ (.checkpoint :: put_record 0 7))))

theorem record_below_frontier :
    ∃ state, machine.run (State.opened 0 none) idle_clients = some state ∧
      state.frontier = some 2 ∧ state.returned = [⟨7, 0⟩] ∧ state.cold = [] ∧
      ¬FrontierSound state := by
  obtain ⟨connected, ran, stage, unclaimed, ring, owner, keys, viper_next, returned, cold⟩ :
      ∃ state, machine.run (State.opened 0 none)
          (connect 0 0 ++ connect 1 1 ++ List.replicate 7 .checkpoint) = some state ∧
        state.checkpoint = .slot_active 2 kNoActiveBlock ∧
        (∀ slot, 2 ≤ slot → (state.slots slot).active = false) ∧
        state.ring = (fun _ => 0) ∧ state.clients 0 = some ⟨0, .ready 0⟩ ∧ state.keys = [] ∧
        state.viper_next = 2 ∧ state.returned = [] ∧ state.cold = [] := by
    refine ⟨_, rfl, rfl, ?_, rfl, rfl, rfl, rfl, rfl, rfl⟩
    rintro (_ | _ | slot) above
    · omega
    · omega
    · rfl
  have scanned := Machine.run_of_checked
    (scan_slots (kMaxClientSlots - 2) stage (by decide) unclaimed)
  have unused : ∀ slot, count_of (connected.ring slot) = 0 := by
    intro slot
    rw [ring]
    simp [count_of]
  -- the load of Viper's next block, past all slots
  obtain ⟨loaded, load, stage, ring_loaded, owner_kept, keys, returned, cold⟩ : ∃ state,
      machine.run { connected with checkpoint := .slot_active kMaxClientSlots kNoActiveBlock }
        [.checkpoint] = some state ∧
      state.checkpoint = .ring 0 kNoActiveBlock 2 kNoActiveBlock ∧
      state.ring = connected.ring ∧ state.clients 0 = some ⟨0, .ready 0⟩ ∧ state.keys = [] ∧
      state.returned = [] ∧ state.cold = [] := by
    refine ⟨_, rfl, ?_, rfl, owner, keys, returned, cold⟩
    simp [State.checkpoint_step, viper_next]
  have read := Machine.run_of_checked
    (scan_ring kWindow stage (Nat.zero_add _) (fun slot _ => by rw [ring_loaded]; exact unused slot))
  have least : min (min kNoActiveBlock 2) kNoActiveBlock = 2 := by decide
  obtain ⟨published, write, frontier, ring_kept, owner, keys, returned, cold⟩ : ∃ state,
      machine.run { loaded with checkpoint := .ring kWindow kNoActiveBlock 2 kNoActiveBlock }
        [.checkpoint] = some state ∧ state.frontier = some 2 ∧
      state.ring = loaded.ring ∧ state.clients 0 = some ⟨0, .ready 0⟩ ∧ state.keys = [] ∧
      state.returned = [] ∧ state.cold = [] := by
    refine ⟨_, congrArg some (write_step rfl), congrArg some least, rfl, owner_kept, keys, returned,
      cold⟩
  have free : count_of (published.ring (slot_of 0)) = 0 := by
    rw [ring_kept, ring_loaded]
    exact unused _
  obtain ⟨_, registered⟩ := register_of_free free (by decide)
  obtain ⟨late, put, put_returned, put_cold, put_frontier⟩ :=
    put_record_run 7 owner (by rw [keys]; simp) registered
  rw [returned] at put_returned
  rw [cold] at put_cold
  rw [frontier] at put_frontier
  refine ⟨late, ?_, put_frontier, put_returned, put_cold, fun sound => ?_⟩
  · rw [idle_clients, Machine.run_append, ran, Option.bind_some, Machine.run_append, scanned,
      Option.bind_some, Machine.run_append, load, Option.bind_some, read_ring, Machine.run_append,
      read, Option.bind_some, ← List.singleton_append, Machine.run_append, write, Option.bind_some,
      put]
  · have lost := sound ⟨7, 0⟩ (by rw [put_returned]; simp)
      (by rw [State.start_block, put_frontier]; decide)
    rw [put_cold] at lost
    cases lost

/-- A client puts into block 0, then its pages fill up and it goes on in block
2, where it has announced a put by the time that a checkpoint reads its slot.
All its entries have been flushed. -/
def flushed_clients : List Action :=
  connect 0 0 ++ put_record 0 7 ++ [.apply ⟨7, 0⟩, .retire ⟨7, 0⟩] ++
    (.put 0 8 :: .claim_block 0 :: .claim_block 0 :: List.replicate 5 (.client 0)) ++
    put_record 0 9 ++ [.apply ⟨8, 2⟩, .retire ⟨8, 2⟩, .apply ⟨9, 2⟩, .retire ⟨9, 2⟩] ++
    List.replicate 4 .checkpoint

/-- The checkpoint file has a block that the pool does not count as used. -/
theorem frontier_sound_flushed :
    ∃ state, machine.Reach AnnouncedInTime state ∧ state.frontier = some 2 ∧
      ⟨7, 0⟩ ∈ state.returned ∧ FrontierSound state := by
  obtain ⟨scanning, ran, stage, unclaimed, ring, others, seen, viper_next, returned⟩ :
      ∃ state, (machine.checked early).run (State.opened 0 (some 1)) flushed_clients = some state ∧
        state.checkpoint = .slot_active 1 2 ∧
        (∀ slot, 1 ≤ slot → (state.slots slot).active = false) ∧
        (∀ slot, count_of (state.ring slot) = 0) ∧
        (∀ id, id ≠ 0 → state.clients id = none) ∧ state.seen 0 = true ∧ state.viper_next = 3 ∧
        state.returned = [⟨7, 0⟩, ⟨8, 2⟩, ⟨9, 2⟩] := by
    refine ⟨_, rfl, rfl, ?_, ?_, ?_, rfl, rfl, rfl⟩
    · rintro (_ | slot) above
      · omega
      · rfl
    · rintro (_ | _ | _ | slot)
      · decide +kernel
      · decide +kernel
      · decide +kernel
      · have empty : count_of 0 = 0 := by decide
        exact empty
    · rintro (_ | id) other
      · exact absurd rfl other
      · rfl
  have reached : machine.Reach AnnouncedInTime scanning :=
    Machine.Reach.run_checked (.start ⟨0, some 1, rfl⟩) early_in_time ran
  have scanned := reached.run_checked early_in_time
    (scan_slots (kMaxClientSlots - 1) stage (by decide) unclaimed)
  -- the only client was found announced
  obtain ⟨loaded, reached, stage, unused, late, returned⟩ : ∃ state,
      machine.Reach AnnouncedInTime state ∧ state.checkpoint = .ring 0 2 3 kNoActiveBlock ∧
        (∀ slot, count_of (state.ring slot) = 0) ∧ (∀ id, state.late id = none) ∧
        state.returned = [⟨7, 0⟩, ⟨8, 2⟩, ⟨9, 2⟩] := by
    refine ⟨_, @Machine.Reach.move _ _ _ _ _ _ .checkpoint scanned trivial rfl, ?_, ring, ?_,
      returned⟩
    · simp only [State.checkpoint_step, viper_next, Nat.lt_irrefl, if_false]
    · intro id
      by_cases first : id = 0
      · subst first
        simp [State.checkpoint_step, seen]
      · simp [State.checkpoint_step, others id first]
  have read := reached.run_checked early_in_time
    (scan_ring kWindow stage (Nat.zero_add _) (fun slot _ => unused slot))
  have in_time : AnnouncedInTime
      { loaded with checkpoint := .ring kWindow 2 3 kNoActiveBlock } .checkpoint := by
    refine .inr (fun id block owned => ?_)
    cases (late id).symm.trans owned
  have least : min (min 2 3) kNoActiveBlock = 2 := by decide
  have written := read.move in_time (congrArg some (write_step rfl))
  refine ⟨_, written, congrArg some least, ?_, frontier_sound written⟩
  exact List.mem_of_mem_head? (congrArg List.head? returned)

end Hiom.Frontier
