import Hiom.Lib.Machine
import Hiom.Frontier.Pending

/-!
Clients that put fresh keys, flushers that apply their entries, and a
checkpoint that derives the durable frontier from three racy reads. A record is
known by its key and the block it lies in.
-/

namespace Hiom.Frontier

def kMaxClientSlots : Nat := 256

/-- Also what a minimum over nothing starts from. -/
def kNoActiveBlock : Nat := 2 ^ 64 - 1

structure CommitEntry where
  key : Nat
  block : Nat
  deriving DecidableEq

structure ClientSlot where
  last_block : Nat
  inflight_block : Nat
  active : Bool

/-- Where a client is. The first three stages are `get_client`, after Viper has
given the client its block; the others from `announced` on are `put`. -/
inductive Stage where
  | reserving (idx : Nat)
  | reset_last (slot : Nat)
  | reset_inflight (slot : Nat)
  | ready (slot : Nat)
  | announced (slot key : Nat)
  | persisted (slot : Nat) (e : CommitEntry)
  | noted (slot : Nat) (e : CommitEntry)
  | registered (slot : Nat) (e : CommitEntry)
  | pushed (slot : Nat) (e : CommitEntry)

def Stage.claimed : Stage → Option Nat
  | .reserving _ => none
  | .reset_last slot | .reset_inflight slot | .ready slot | .announced slot _ | .persisted slot _
  | .noted slot _ | .registered slot _ | .pushed slot _ => some slot

/-- The slot of a client, once no words of an earlier owner are left in it. -/
def Stage.tracked : Stage → Option Nat
  | .reserving _ | .reset_last _ | .reset_inflight _ => none
  | stage => stage.claimed

/-- `block` is Viper's `v_block_number_`. -/
structure Client where
  block : Nat
  stage : Stage

/-- Where the holder of `checkpoint_mu_` is within `try_write_checkpoint`. The
scan of the client slots loads three words of a slot one by one. -/
inductive Checkpoint where
  | idle
  | slot_active (idx m : Nat)
  | slot_last (idx m : Nat)
  | slot_inflight (idx m lb : Nat)
  | ring (idx m viper_next min_b : Nat)

/-- `seen` tells which clients had announced a block by the time that the
checkpoint read their slot, and `late` which blocks the others owned when it read
Viper's next block. Nothing in the code depends on them. -/
structure State where
  viper_next : Nat
  created : Nat
  clients : Nat → Option Client
  slots : Nat → ClientSlot
  ring : PendingBlocks
  keys : List Nat
  buffer : List CommitEntry
  applied : List CommitEntry
  cold : List CommitEntry
  returned : List CommitEntry
  checkpoint : Checkpoint
  seen : Nat → Bool
  late : Nat → Option Nat
  frontier : Option Nat

inductive Action where
  | get_client
  | put (id key : Nat)
  | claim_block (id : Nat)
  | client (id : Nat)
  | destroy (id : Nat)
  | apply (e : CommitEntry)
  | retire (e : CommitEntry)
  | checkpoint

def State.at (state : State) (id block : Nat) (stage : Stage) : State :=
  { state with clients := Function.update state.clients id (some ⟨block, stage⟩) }

def State.set_slot (state : State) (idx : Nat) (slot : ClientSlot) : State :=
  { state with slots := Function.update state.slots idx slot }

def State.client_step (state : State) (id : Nat) : Option State :=
  match state.clients id with
  | none => none
  | some ⟨block, stage⟩ =>
      match stage with
      | .reserving idx =>
          if idx < kMaxClientSlots then
            if (state.slots idx).active then some (state.at id block (.reserving (idx + 1)))
            else
              some ((state.set_slot idx { state.slots idx with active := true }).at id block
                (.reset_last idx))
          else none
      | .reset_last slot =>
          some ((state.set_slot slot { state.slots slot with last_block := kNoActiveBlock }).at id
            block (.reset_inflight slot))
      | .reset_inflight slot =>
          some ((state.set_slot slot { state.slots slot with
            inflight_block := kNoActiveBlock }).at id block (.ready slot))
      | .ready _ => none
      | .announced slot key => some (state.at id block (.persisted slot ⟨key, block⟩))
      | .persisted slot e =>
          some ((state.set_slot slot { state.slots slot with last_block := e.block }).at id block
            (.noted slot e))
      | .noted slot e =>
          match pending_register state.ring e.block with
          | none => none
          | some ring => some ({ state with ring := ring }.at id block (.registered slot e))
      | .registered slot e =>
          some ({ state with buffer := state.buffer ++ [e] }.at id block (.pushed slot e))
      | .pushed slot e =>
          some ({ state with returned := state.returned ++ [e] }.at id block (.ready slot))

def State.checkpoint_step (state : State) : State :=
  match state.checkpoint with
  | .idle =>
      { state with checkpoint := .slot_active 0 kNoActiveBlock, seen := fun _ => false }
  | .slot_active idx m =>
      if idx < kMaxClientSlots then
        if (state.slots idx).active then { state with checkpoint := .slot_last idx m }
        else { state with checkpoint := .slot_active (idx + 1) m }
      else
        { state with
          checkpoint := .ring 0 m state.viper_next kNoActiveBlock
          late := fun id => if state.seen id then none else (state.clients id).map Client.block }
  | .slot_last idx m =>
      { state with checkpoint := .slot_inflight idx m (state.slots idx).last_block }
  | .slot_inflight idx m lb =>
      let ib := (state.slots idx).inflight_block
      { state with
        checkpoint := .slot_active (idx + 1) (min m (min lb ib))
        seen := fun id => state.seen id ||
          match state.clients id with
          | some c => c.stage.tracked == some idx && ib != kNoActiveBlock
          | none => false }
  | .ring idx m viper_next min_b =>
      if idx < kWindow then
        if count_of (state.ring idx) = 0 then
          { state with checkpoint := .ring (idx + 1) m viper_next min_b }
        else
          { state with
            checkpoint := .ring (idx + 1) m viper_next (min min_b (block_of (state.ring idx))) }
      else
        { state with
          checkpoint := .idle
          frontier := some (min (min m viper_next) min_b) }

def State.step (state : State) : Action → Option State
  | .get_client =>
      some ({ state with
        viper_next := state.viper_next + 1
        created := state.created + 1 }.at state.created state.viper_next (.reserving 0))
  | .put id key =>
      match state.clients id with
      | some ⟨block, .ready slot⟩ =>
          -- the key is fresh; the owned block is published before the record is written
          if key ∈ state.keys then none
          else
            some ({ state with keys := key :: state.keys }.set_slot slot
              { state.slots slot with inflight_block := block } |>.at id block (.announced slot key))
      | _ => none
  | .claim_block id =>
      match state.clients id with
      | some ⟨_, .announced slot key⟩ =>
          -- no page of the owned block has room
          some ({ state with viper_next := state.viper_next + 1 }.at id state.viper_next
            (.announced slot key))
      | _ => none
  | .client id => state.client_step id
  | .destroy id =>
      match state.clients id with
      | some ⟨_, .ready slot⟩ =>
          some { state.set_slot slot { state.slots slot with active := false } with
            clients := Function.update state.clients id none }
      | _ => none
  | .apply e =>
      if e ∈ state.buffer then
        some { state with
          buffer := state.buffer.erase e
          cold := state.cold ++ [e]
          applied := state.applied ++ [e] }
      else none
  | .retire e =>
      if e ∈ state.applied then
        match pending_retire state.ring e.block with
        | none => none
        | some ring => some { state with ring := ring, applied := state.applied.erase e }
      else none
  | .checkpoint => some state.checkpoint_step

/-- After an open that found `viper_next` blocks in use and `frontier` in the
checkpoint file, and has replayed the records from there on. A process that is
killed before it has counted the block of a new client as used leaves a frontier
above `viper_next`. -/
def State.opened (viper_next : Nat) (frontier : Option Nat) : State where
  viper_next := viper_next
  created := 0
  clients := fun _ => none
  slots := fun _ => ⟨kNoActiveBlock, kNoActiveBlock, false⟩
  ring := fun _ => 0
  keys := []
  buffer := []
  applied := []
  cold := []
  returned := []
  checkpoint := .idle
  seen := fun _ => false
  late := fun _ => none
  frontier := frontier

def machine : Machine State Action where
  initial := fun state => ∃ viper_next frontier, state = State.opened viper_next frontier
  step := State.step

def State.start_block (state : State) : Nat :=
  match state.frontier with
  | none => 0
  | some frontier_block => if frontier_block > 0 then frontier_block - 1 else 0

/-- Every returned put that recovery would not replay is in the cold tier. -/
def FrontierSound (state : State) : Prop :=
  ∀ e ∈ state.returned, e.block < state.start_block → e ∈ state.cold

end Hiom.Frontier
