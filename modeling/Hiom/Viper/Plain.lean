import Hiom.Cceh.Index
import Hiom.Lib.Machine
import Hiom.Viper.Writer

/-!
Viper without HiOM: clients that act one after another on the pages and on the
index, and the reclamation of blocks.
-/

namespace Hiom.Viper.Records.Plain

open Cceh (Hasher Index INVALID SENTINEL)

/-- What stands for a key in the index: a key of 8 bytes itself, else its hash,
which is compared with the hash of another key and then the keys themselves. -/
structure KeyType (K : Type) where
  using_fp : Bool
  hasher : Hasher
  key_checker : K → Nat
  key_checker_lt : ∀ key, key_checker key < 2 ^ 64
  told_apart : using_fp = false → Function.Injective key_checker
  fp_hash : using_fp = true → ∀ word, hasher.hash word = word

/-- The words that mark the slots of the index are not used for a key. -/
def KeyType.Valid {K : Type} (keys : KeyType K) (key : K) : Prop :=
  keys.key_checker key ≠ INVALID ∧ keys.key_checker key ≠ SENTINEL

instance {K : Type} (keys : KeyType K) (key : K) : Decidable (keys.Valid key) :=
  inferInstanceAs (Decidable (_ ∧ _))

/-- `free_threshold` is how many slots of a block must be free and one less for
the block to be reclaimed. The index begins with `2 ^ cceh_depth` segments. -/
structure Config (K : Type) where
  layout : Layout
  keys : KeyType K
  cceh_depth : Nat
  cceh_depth_pos : 1 ≤ cceh_depth
  cceh_depth_le : cceh_depth ≤ 64
  free_threshold : Nat

structure Client (K V : Type) where
  writer : Writer K V
  map_ : Index

/-- As often as an insertion into the index may split segments, and once more. -/
def insert_rounds : Nat := 65

section

variable {K V : Type} [DecidableEq K] (config : Config K)

def check_key_equality (pool : Pool K V) (key : K) (offset_to_compare : KVOffset) : Bool :=
  let page := pool.v_blocks offset_to_compare.block_number offset_to_compare.page_number
  let slot := offset_to_compare.data_offset
  !offset_to_compare.is_tombstone && !page.free_slots slot && decide ((page.data slot).1 = key)

/-- The check of the index: words of 8 bytes need none. -/
def key_check_fn (pool : Pool K V) (key : K) (offset : KVOffset) : Bool :=
  !config.keys.using_fp || check_key_equality pool key offset

namespace Client

/-- The first part of `put`: a slot is taken on the client's page or, if that is
full, on the next one. It leaves the page locked. -/
def claim (rand : Nat) (key : K) (value : V) : Nat → Writer K V → Option (KVOffset × Writer K V)
  | 0, _ => none
  | tries + 1, writer => do
      let (claimed, writer) ← writer.claim_slot config.layout rand key value
      match claimed with
      | some kv_offset => some (kv_offset, writer)
      | none => claim rand key value tries writer

def map_insert (key : K) (value : KVOffset) (client : Client K V) : Option (KVOffset × Client K V) := do
  let (old_offset, map_) ← client.map_.Insert config.keys.hasher (config.keys.key_checker key) value
    (key_check_fn config client.writer.toPool key) insert_rounds
  some (old_offset, { client with map_ := map_ })

def map_get (key : K) (client : Client K V) : KVOffset :=
  client.map_.Get config.keys.hasher (config.keys.key_checker key)
    (key_check_fn config client.writer.toPool key)

def put (rand : Nat) (key : K) (value : V) (delete_old : Bool) (client : Client K V) :
    Option (Bool × Client K V) := do
  let (kv_offset, writer) ← claim config rand key value 2 client.writer
  let (old_offset, client) ← map_insert config key kv_offset { client with writer := writer }
  let is_new_item := old_offset.is_tombstone
  let writer ←
    if !is_new_item && delete_old then client.writer.free_occupied_slot old_offset
    else some client.writer
  some (is_new_item, { client with writer := writer.unlock_v_page })

/-- It spins on a page that is locked. -/
def get (key : K) (client : Client K V) : Option (Option V) :=
  let kv_offset := client.map_get config key
  let page := client.writer.page kv_offset.block_number kv_offset.page_number
  if kv_offset.is_tombstone then some none
  else if !check_key_equality client.writer.toPool key kv_offset then some none
  else if page.version_lock.is_locked then none
  else some (some (page.data kv_offset.data_offset).2)

def update (key : K) (update_fn : V → V) (client : Client K V) : Option (Bool × Client K V) :=
  let kv_offset := client.map_get config key
  let bn := kv_offset.block_number
  let pn := kv_offset.page_number
  if kv_offset.is_tombstone then some (false, client)
  else do
    let page ← (client.writer.page bn pn).lock
    let value := update_fn (page.data kv_offset.data_offset).2
    some (true,
      { client with
        writer :=
          client.writer.set_page bn pn (page.write_value kv_offset.data_offset value).unlock })

def remove (key : K) (client : Client K V) : Option (Bool × Client K V) :=
  let kv_offset := client.map_get config key
  if kv_offset.is_tombstone then some (false, client)
  else do
    let writer ← client.writer.free_occupied_slot kv_offset
    let (_, client) ← map_insert config key .Tombstone { client with writer := writer }
    some (true, client)

end Client

/-! ### Many clients -/

inductive Call (K V : Type) where
  | put (key : K) (value : V) (rand : Nat)
  | get (key : K)
  | update (key : K) (update_fn : V → V)
  | remove (key : K)

/-- `put`, `update` and `remove` answer whether; `get` answers what. -/
inductive Answer (V : Type) where
  | flag (result : Bool)
  | found (value : Option V)
  deriving DecidableEq

/-- `log` is a ghost: the calls that have returned and their answers, the last
one first. -/
structure State (K V : Type) where
  pool : Pool K V
  map_ : Index
  clients : Nat → Option Position
  log : List (Call K V × Answer V)

namespace State

def created (zero : K × V) (num_v_blocks : Nat) : State K V :=
  { pool := ⟨fun _ _ => ⟨0#8, fun _ => false, fun _ => zero⟩, num_v_blocks, .of_parts 0 0 0, []⟩
    map_ := .create config.cceh_depth
    clients := fun _ => none
    log := [] }

def client (state : State K V) (position : Position) : Client K V := ⟨⟨state.pool, position⟩, state.map_⟩

def returned (state : State K V) (id : Nat) (client : Client K V) : State K V :=
  { state with
    pool := client.writer.toPool
    map_ := client.map_
    clients := Function.update state.clients id (some client.writer.toPosition) }

def call (call : Call K V) (client : Client K V) : Option (Answer V × Client K V) :=
  match call with
  | .put key value rand => do
      let (is_new_item, client) ← client.put config rand key value true
      some (.flag is_new_item, client)
  | .get key => do some (.found (← client.get config key), client)
  | .update key update_fn => do
      let (updated, client) ← client.update config key update_fn
      some (.flag updated, client)
  | .remove key => do
      let (removed, client) ← client.remove config key
      some (.flag removed, client)

def connect (id rand : Nat) (state : State K V) : Option (State K V) :=
  match state.clients id with
  | some _ => none
  | none => do
      let writer ← (⟨state.pool, 0, 0, 0⟩ : Writer K V).get_block_based_access config.layout rand none
      some (state.returned id ⟨writer, state.map_⟩)

def disconnect (id : Nat) (state : State K V) : Option (State K V) := do
  let position ← state.clients id
  let writer := (⟨state.pool, position⟩ : Writer K V).leave_block (some position.v_block_number)
  some { state with pool := writer.toPool, clients := Function.update state.clients id none }

/-! ### Reclamation -/

def set_page (state : State K V) (bn pn : Nat) (page : VPage K V) : State K V :=
  { state with
    pool :=
      { state.pool with
        v_blocks :=
          Function.update state.pool.v_blocks bn
            (Function.update (state.pool.v_blocks bn) pn page) } }

def is_owned (block : VPageBlock K V) : Bool := (block 0).version_lock &&& CLIENT_BIT == CLIENT_BIT

def is_unused (layout : Layout) (block : VPageBlock K V) : Bool :=
  (List.range layout.num_pages_per_block).all fun pn => !(block pn).version_lock.is_used

def block_free_slots (layout : Layout) (block : VPageBlock K V) : Nat :=
  ((List.range layout.num_pages_per_block).map fun pn =>
    (List.range layout.num_slots_per_page).countP (block pn).free_slots).sum

def eligible (block : VPageBlock K V) : Bool :=
  !is_owned block && !is_unused config.layout block &&
    config.free_threshold < block_free_slots config.layout block

def compact_slot (id rand bn pn slot : Nat) (state : State K V) : Option (State K V) :=
  let page := state.pool.v_blocks bn pn
  if page.free_slots slot then some state
  else do
    let position ← state.clients id
    let (_, client) ←
      (state.client position).put config rand (page.data slot).1 (page.data slot).2 false
    let state := state.returned id client
    some (state.set_page bn pn ((state.pool.v_blocks bn pn).invalidate_record slot))

def compact_page (id : Nat) (rand : Nat → Nat → Nat) (bn pn : Nat) (state : State K V) :
    Option (State K V) := do
  let page ← (state.pool.v_blocks bn pn).lock
  let state ← (List.range config.layout.num_slots_per_page).foldlM
    (fun state slot => compact_slot config id (rand pn slot) bn pn slot state)
    (state.set_page bn pn page)
  some (state.set_page bn pn (state.pool.v_blocks bn pn).unlock)

def compact (id : Nat) (rand : Nat → Nat → Nat) (bn : Nat) (state : State K V) :
    Option (State K V) :=
  (List.range config.layout.num_pages_per_block).foldlM
    (fun state pn => compact_page config id rand bn pn state) state

def enqueue (bn : Nat) (state : State K V) : State K V :=
  let state := state.set_page bn 0 { state.pool.v_blocks bn 0 with version_lock := 0#8 }
  { state with pool := { state.pool with free_blocks := state.pool.free_blocks ++ [bn] } }

def reclaim_block (id : Nat) (rand : Nat → Nat → Nat → Nat) (bn : Nat) (state : State K V) :
    Option (State K V) :=
  if eligible config (state.pool.v_blocks bn) then do
    let state ← state.compact config id (rand bn) bn
    some (state.enqueue bn)
  else some state

/-- The client of `reclaim` lives as long as the call; `id` is not in use yet. -/
def reclaim (id first_rand : Nat) (rand : Nat → Nat → Nat → Nat) (state : State K V) :
    Option (State K V) := do
  let max_block := state.pool.current_block_page.block_number
  let state ← state.connect config id first_rand
  let state ← (List.range max_block).foldlM
    (fun state bn => reclaim_block config id rand bn state) state
  state.disconnect id

end State

/-! ### Runs -/

/-- `grow` is what a resize adds to the mapped blocks. The numbers `rand` stand
for the choices of `rand()` and of the queue of free blocks. -/
inductive Action (K V : Type) where
  | connect (id rand : Nat)
  | call (id : Nat) (call : Call K V)
  | disconnect (id : Nat)
  | grow (n : Nat)
  | reclaim (id first_rand : Nat) (rand : Nat → Nat → Nat → Nat)

def machine (zero : K × V) : Machine (State K V) (Action K V) where
  initial := fun state =>
    ∃ num_v_blocks < 2 ^ 45, state = State.created config zero num_v_blocks
  step := fun state action =>
    match action with
    | .connect id rand => state.connect config id rand
    | .call id call => do
        let position ← state.clients id
        let (answer, client) ← State.call config call (state.client position)
        some { state.returned id client with log := (call, answer) :: state.log }
    | .disconnect id => state.disconnect id
    | .grow n =>
        if state.pool.num_v_blocks + n < 2 ^ 45 then
          some { state with pool := { state.pool with num_v_blocks := state.pool.num_v_blocks + n } }
        else none
    | .reclaim id first_rand rand => state.reclaim config id first_rand rand

/-! ### What the calls are to do -/

section Map

def applied (map : K → Option V) : Call K V → K → Option V
  | .put key value _ => Function.update map key (some value)
  | .get _ => map
  | .update key update_fn => Function.update map key ((map key).map update_fn)
  | .remove key => Function.update map key none

def map_of : List (Call K V × Answer V) → K → Option V
  | [] => fun _ => none
  | (call, _) :: log => applied (map_of log) call

def expected (map : K → Option V) : Call K V → Answer V
  | .put key _ _ => .flag (map key).isNone
  | .get key => .found (map key)
  | .update key _ => .flag (map key).isSome
  | .remove key => .flag (map key).isSome

def Truthful : List (Call K V × Answer V) → Prop
  | [] => True
  | (call, answer) :: log => answer = expected (map_of log) call ∧ Truthful log

instance Truthful.decidable [DecidableEq V] :
    (log : List (Call K V × Answer V)) → Decidable (Truthful log)
  | [] => .isTrue trivial
  | (call, answer) :: log =>
      have := Truthful.decidable log
      inferInstanceAs (Decidable (answer = expected (map_of log) call ∧ Truthful log))

/-- The calls decide the answers. -/
theorem Truthful.unique {first second : List (Call K V × Answer V)} (truthful : Truthful first)
    (other : Truthful second) (calls : first.map Prod.fst = second.map Prod.fst) : first = second := by
  induction first generalizing second with
  | nil =>
      cases second with
      | nil => rfl
      | cons entry rest => cases calls
  | cons entry rest ih =>
      cases second with
      | nil => cases calls
      | cons other_entry other_rest =>
          obtain ⟨call, answer⟩ := entry
          obtain ⟨other_call, other_answer⟩ := other_entry
          obtain ⟨here, calls⟩ := List.cons.inj calls
          have same := ih truthful.2 other.2 calls
          dsimp only at here
          subst here same
          rw [truthful.1, other.1]

end Map

end

end Hiom.Viper.Records.Plain
