import Hiom.Viper.Intents

/-!
The pages of Viper under clients that put, update and remove records: the
claim of blocks, the initialisation of pages, the free slots, and the queue of
offsets that resolves deadlocks. Every store, and every load of `free_slots`
outside the search for a free slot, is a step. Block reclamation is off.
-/

namespace Hiom.Viper.Pages

open Intents (Page)

/-- An offset names its page by the address. -/
structure KVOffset where
  page : Page
  data_offset : Nat
  deriving DecidableEq

structure Layout where
  num_pages_per_block : Nat
  num_slots_per_page : Nat
  page : Nat → Nat → Page
  pages_pos : 0 < num_pages_per_block
  slots_pos : 0 < num_slots_per_page
  apart : ∀ block block' p p', p < num_pages_per_block → p' < num_pages_per_block →
    page block p = page block' p' → block = block' ∧ p = p'

def Layout.words (layout : Layout) : Nat := (layout.num_slots_per_page + 63) / 64

/-- A put and the `free_occupied_slot` it calls are two calls with a lock. -/
inductive Agent where
  | own (client : Nat)
  | other (client : Nat)
  | reader (reader : Nat)
  deriving DecidableEq

structure Put (K V : Type) where
  key : K
  value : V

/-- `deadlock_offsets_` has the offset only: `client` is who has put it there. -/
structure Entry where
  offset : KVOffset
  client : Nat
  deriving DecidableEq

/-- A call of `free_occupied_slot`. `put` is the slot of the new record, if a put
has called it. -/
structure Free (K : Type) where
  key : K
  offset : KVOffset
  put : Option Nat
  deadlock_offset_inserted : Bool
  encountered_own_offset : Bool

/-- What changes a bit of `free_slots`: the claim of a slot by a put, and the
three calls of `invalidate_record` in `free_occupied_slot`. -/
inductive Site (K V : Type) where
  | claim (put : Put K V) (slot : Nat)
  | own (free : Free K)
  | queued (free : Free K) (entry : Entry) (todo new_offsets : List Entry)
  | target (free : Free K)

/-- The calls of `init`: in `get_block_based_access`, on the same page once more
at the end of `update_access_information`, and there on the next page. -/
inductive Init where
  | claimed
  | repeated
  | moved
  deriving DecidableEq

/-- Where a client is. `next_word` is the word of `free_slots` that `init` sets
next, when it has stored `version_lock`; `bits` are those that a change has
loaded. A stage that waits for a lock or for its end goes on when the agent of
the client is there. -/
inductive Stage (K V : Type) where
  | new
  | claim (old_block : Option Nat) (resume : Option (Put K V))
  | disown (old_block : Nat) (resume : Option (Put K V))
  | init (kind : Init) (next_word : Option Nat) (resume : Option (Put K V))
  | own (resume : Option (Put K V))
  | idle
  | lock (put : Put K V)
  | full (put : Put K V)
  | write (put : Put K V) (slot : Nat) (key_written : Bool)
  | change (site : Site K V) (bits : Option (Nat → Bool))
  | resolve (put : Put K V) (slot : Nat)
  | acquire (free : Free K)
  | spin (free : Free K)
  | scan (free : Free K) (todo new_offsets : List Entry)
  | release (free : Free K)
  | dequeue_spin (free : Free K)
  | dequeue_erase (free : Free K)
  | dequeue_release (free : Free K)
  | finish (free : Free K)
  | unlock (slot : Nat)
  | update (offset : KVOffset) (key : K) (value : V)
  | store (offset : KVOffset) (value : V)
  | leave

structure Client (K V : Type) where
  v_block_number : Nat
  v_page_number : Nat
  num_v_pages_processed : Nat
  stage : Stage K V

/-- The last six fields are not in the code: the blocks that clients have got,
the pages that are initialised, the keys that have been put, the record that a
put has written whole into a slot and nobody has freed, whether that put has
returned, and how often a slot has been marked free for the call that a client
is in. -/
structure State (K V : Type) where
  locks : Intents.State Agent
  free_slots : Page → Nat → Bool
  data : KVOffset → K × V
  deadlock_offsets : List Entry
  deadlock_offset_lock : Bool
  clients : Nat → Client K V
  given : List Nat
  ready : Page → Bool
  keys : List K
  live : KVOffset → Option (K × V)
  returned : KVOffset → Bool
  marks : Nat → Nat

/-- The index yields the offsets of records that puts have written. -/
inductive Action (K V : Type) where
  | get_client (client : Nat)
  | get_new_block (client block page : Nat)
  | put (client : Nat) (key : K) (value : V)
  | update (client : Nat) (offset : KVOffset) (key : K) (value : V)
  | remove (client : Nat) (offset : KVOffset) (key : K)
  | old_offset (client : Nat) (offset : Option KVOffset)
  | client (client : Nat)
  | agent (agent : Agent) (spurious : Bool)
  | repair (reader : Nat) (page : Page)

variable {K V : Type}

def Client.v_page (client : Client K V) (layout : Layout) : Page :=
  layout.page client.v_block_number client.v_page_number

def Site.free? : Site K V → Option (Free K)
  | .claim .. => none
  | .own free | .queued free .. | .target free => some free

def Stage.free? : Stage K V → Option (Free K)
  | .change site _ => site.free?
  | .acquire free | .spin free | .scan free .. | .release free | .dequeue_spin free
  | .dequeue_erase free | .dequeue_release free | .finish free => some free
  | _ => none

def Site.offset (v_page : Page) : Site K V → KVOffset
  | .claim _ slot => ⟨v_page, slot⟩
  | .own free | .target free => free.offset
  | .queued _ entry .. => entry.offset

def Site.bit : Site K V → Bool
  | .claim .. => false
  | .own .. | .queued .. | .target .. => true

/-- The word with the bit of the slot goes back as it was loaded, but for the
bit. -/
def store_bit (current loaded : Nat → Bool) (slot : Nat) (bit : Bool) : Nat → Bool :=
  fun other =>
    if other / 64 = slot / 64 then if other = slot then bit else loaded other
    else current other

def store_word (current : Nat → Bool) (word : Nat) : Nat → Bool :=
  fun other => if other / 64 = word then true else current other

/-- `_Find_first`, below the number of slots. -/
def find_first (layout : Layout) (bits : Nat → Bool) : Option Nat :=
  (List.range layout.num_slots_per_page).find? bits

def State.set_client (state : State K V) (id : Nat) (client : Client K V) : State K V :=
  { state with clients := Function.update state.clients id client }

def State.at (state : State K V) (id : Nat) (stage : Stage K V) : State K V :=
  state.set_client id { state.clients id with stage := stage }

def State.set_bits (state : State K V) (page : Page) (bits : Nat → Bool) : State K V :=
  { state with free_slots := Function.update state.free_slots page bits }

def State.with_locks (state : State K V) (action : Intents.Action Agent) : Option (State K V) :=
  (state.locks.step action).map (fun locks => { state with locks := locks })

def State.count_mark (state : State K V) (id : Nat) (offset : KVOffset) : State K V :=
  { state with
    live := Function.update state.live offset none
    marks := Function.update state.marks id (state.marks id + 1) }

section

variable (layout : Layout)

def State.begin_put (state : State K V) (id : Nat) (put : Put K V) : Option (State K V) :=
  (state.at id (.lock put)).with_locks
    (.lock (.own id) .put ((state.clients id).v_page layout))

/-- `free_occupied_slot`. On the page of the client there is nothing to lock. -/
def State.begin_free (state : State K V) (id : Nat) (free : Free K) : Option (State K V) :=
  let state := { state with marks := Function.update state.marks id 0 }
  if free.offset.page = (state.clients id).v_page layout then
    some (state.at id (.change (.own free) none))
  else (state.at id (.acquire free)).with_locks (.lock (.other id) .free free.offset.page)

def State.changed (state : State K V) (id : Nat) : Site K V → State K V
  | .claim put slot => state.at id (.resolve put slot)
  | .own free => (state.count_mark id free.offset).at id (.finish free)
  | .queued free entry todo new_offsets =>
      (state.count_mark entry.client entry.offset).at id (.scan free todo new_offsets)
  | .target free =>
      (state.count_mark id free.offset).at id
        (if free.deadlock_offset_inserted ∧ free.encountered_own_offset then .dequeue_spin free
        else .finish free)

def State.initialised (state : State K V) (page : Page) : State K V :=
  { state with ready := Function.update state.ready page true }

variable [DecidableEq K]

def State.client_step (state : State K V) (id : Nat) : Option (State K V) :=
  let client := state.clients id
  let v_page := client.v_page layout
  match client.stage with
  | .new | .claim .. | .idle | .resolve .. => none
  | .disown old_block resume =>
      (state.at id (.init .claimed none resume)).with_locks (.disown (layout.page old_block 0))
  | .init kind none resume =>
      some { state.at id (.init kind (some 0) resume) with
        locks := state.locks.set_lock v_page USED_BIT (state.locks.seen v_page) }
  | .init kind (some next_word) resume =>
      if next_word < layout.words then
        some ((state.set_bits v_page (store_word (state.free_slots v_page) next_word)).at id
          (.init kind (some (next_word + 1)) resume))
      else
        match kind, resume with
        | .claimed, _ => some (state.at id (.own resume))
        | _, some put => (state.initialised v_page).begin_put layout id put
        | _, none => none
  | .own none =>
      ((state.initialised v_page).at id .idle).with_locks
        (.own (layout.page client.v_block_number 0))
  | .own (some put) =>
      (state.at id (.init .repeated none (some put))).with_locks
        (.own (layout.page client.v_block_number 0))
  | .lock put =>
      match state.locks.calls (.own id) with
      | .holding .. =>
          match find_first layout (state.free_slots v_page) with
          | some free_slot_idx => some (state.at id (.write put free_slot_idx false))
          | none => some (state.at id (.full put))
      | _ => none
  | .full put =>
      match state.locks.calls (.own id) with
      | .holding .. => state.with_locks (.unlock (.own id))
      | .idle =>
          if client.num_v_pages_processed + 1 = layout.num_pages_per_block then
            some (state.at id (.claim (some client.v_block_number) (some put)))
          else
            some (state.set_client id { client with
              v_page_number := (client.v_page_number + 1) % layout.num_pages_per_block
              num_v_pages_processed := client.num_v_pages_processed + 1
              stage := .init .moved none (some put) })
      | _ => none
  | .write put slot false =>
      let offset : KVOffset := ⟨v_page, slot⟩
      some { state.at id (.write put slot true) with
        data := Function.update state.data offset (put.key, (state.data offset).2)
        returned := Function.update state.returned offset false }
  | .write put slot true =>
      let offset : KVOffset := ⟨v_page, slot⟩
      let record := ((state.data offset).1, put.value)
      some { state.at id (.change (.claim put slot) none) with
        data := Function.update state.data offset record
        live := Function.update state.live offset (some record) }
  | .change site none =>
      some (state.at id (.change site (some (state.free_slots (site.offset v_page).page))))
  | .change site (some bits) =>
      let offset := site.offset v_page
      some ((state.set_bits offset.page
        (store_bit (state.free_slots offset.page) bits offset.data_offset site.bit)).changed id site)
  | .acquire free =>
      match state.locks.calls (.other id) with
      | .holding .. => some (state.at id (.change (.target free) none))
      | .resolve .. => some (state.at id (.spin free))
      | .idle => some (state.at id (.finish free))
      | _ => none
  | .spin free =>
      if state.deadlock_offset_lock then none
      else
        let deadlock_offsets :=
          if free.deadlock_offset_inserted then state.deadlock_offsets
          else state.deadlock_offsets ++ [⟨free.offset, id⟩]
        let free := { free with deadlock_offset_inserted := true, encountered_own_offset := false }
        some { state.at id (.scan free deadlock_offsets []) with
          deadlock_offset_lock := true, deadlock_offsets := deadlock_offsets }
  | .scan free (entry :: todo) new_offsets =>
      let free := { free with
        encountered_own_offset := free.encountered_own_offset || free.offset == entry.offset }
      if entry.offset.page = v_page then
        some (state.at id (.change (.queued free entry todo new_offsets) none))
      else some (state.at id (.scan free todo (new_offsets ++ [entry])))
  | .scan free [] new_offsets =>
      some { state.at id (.release free) with deadlock_offsets := new_offsets }
  | .release free =>
      ({ state.at id (.acquire free) with deadlock_offset_lock := false }).with_locks
        (.resolved (.other id) free.encountered_own_offset)
  | .dequeue_spin free =>
      if state.deadlock_offset_lock then none
      else some { state.at id (.dequeue_erase free) with deadlock_offset_lock := true }
  | .dequeue_erase free =>
      some { state.at id (.dequeue_release free) with
        deadlock_offsets := state.deadlock_offsets.eraseP (·.offset == free.offset) }
  | .dequeue_release free =>
      some { state.at id (.finish free) with deadlock_offset_lock := false }
  | .finish free =>
      match state.locks.calls (.other id), free.put with
      | .holding .., _ => state.with_locks (.unlock (.other id))
      | .idle, some slot => some (state.at id (.unlock slot))
      | .idle, none => some (state.at id .idle)
      | _, _ => none
  | .unlock slot =>
      match state.locks.calls (.own id) with
      | .holding .. => state.with_locks (.unlock (.own id))
      | .idle =>
          some { state.at id .idle with
            returned := Function.update state.returned ⟨v_page, slot⟩ true }
      | _ => none
  | .update offset key value =>
      match state.locks.calls (.other id) with
      | .holding .. =>
          if state.free_slots offset.page offset.data_offset = true ∨
              (state.data offset).1 ≠ key then
            some (state.at id .leave)
          else some (state.at id (.store offset value))
      | .idle => some (state.at id .idle)
      | _ => none
  | .store offset value =>
      some { state.at id .leave with
        data := Function.update state.data offset ((state.data offset).1, value)
        live := Function.update state.live offset
          ((state.live offset).map (fun record => (record.1, value))) }
  | .leave =>
      match state.locks.calls (.other id) with
      | .holding .. => state.with_locks (.unlock (.other id))
      | .idle => some (state.at id .idle)
      | _ => none

def State.step (state : State K V) : Action K V → Option (State K V)
  | .get_client id =>
      match (state.clients id).stage with
      | .new => some (state.at id (.claim none none))
      | _ => none
  | .get_new_block id block page =>
      match (state.clients id).stage with
      | .claim old_block resume =>
          if block ∉ state.given ∧ page < layout.num_pages_per_block then
            let stage : Stage K V := match old_block with
              | some old_block => .disown old_block resume
              | none => .init .claimed none resume
            some { state.set_client id ⟨block, page, 0, stage⟩ with given := block :: state.given }
          else none
      | _ => none
  | .put id key value =>
      match (state.clients id).stage with
      | .idle => { state with keys := key :: state.keys }.begin_put layout id ⟨key, value⟩
      | _ => none
  | .update id offset key value =>
      match (state.clients id).stage with
      | .idle =>
          if state.ready offset.page then
            (state.at id (.update offset key value)).with_locks
              (.lock (.other id) .update offset.page)
          else none
      | _ => none
  | .remove id offset key =>
      match (state.clients id).stage with
      | .idle =>
          if state.ready offset.page then
            state.begin_free layout id ⟨key, offset, none, false, false⟩
          else none
      | _ => none
  | .old_offset id old_offset =>
      match (state.clients id).stage, old_offset with
      | .resolve put slot, some offset =>
          if state.ready offset.page then
            state.begin_free layout id ⟨put.key, offset, some slot, false, false⟩
          else none
      | .resolve _ slot, none => some (state.at id (.unlock slot))
      | _, _ => none
  | .client id => state.client_step layout id
  | .agent agent spurious => state.with_locks (.call agent spurious)
  | .repair reader page =>
      if state.ready page then state.with_locks (.repair (.reader reader) page) else none

/-- A new pool: all bytes are zero, so that all slots look taken. -/
structure State.Created (state : State K V) : Prop where
  opened : state.locks.Opened
  version_lock : ∀ page, state.locks.version_lock page = 0#8
  free_slots : ∀ page slot, state.free_slots page slot = false
  deadlock_offsets : state.deadlock_offsets = []
  deadlock_offset_lock : state.deadlock_offset_lock = false
  clients : ∀ id, (state.clients id).stage = .new
  given : state.given = []
  ready : ∀ page, state.ready page = false
  keys : state.keys = []
  live : ∀ offset, state.live offset = none
  returned : ∀ offset, state.returned offset = false

/-- A pool that is opened again. Its pages hold anything, any locks may have been
left behind by a kill, and the index yields offsets of any pages of the blocks
that are used. -/
structure State.Opened (state : State K V) : Prop where
  opened : state.locks.Opened
  deadlock_offsets : state.deadlock_offsets = []
  deadlock_offset_lock : state.deadlock_offset_lock = false
  clients : ∀ id, (state.clients id).stage = .new
  ready : ∀ block page, page < layout.num_pages_per_block →
    state.ready (layout.page block page) = true → block ∈ state.given

/-- `hiom_visit_records`; `recover_database` goes over its blocks in the same way. -/
def State.visit_records (state : State K V) (block_lo block_hi : Nat) :
    List ((K × V) × KVOffset) :=
  (List.range' block_lo (block_hi - block_lo)).flatMap fun bn =>
    (List.range layout.num_pages_per_block).flatMap fun pn =>
      let page := layout.page bn pn
      if (state.locks.version_lock page).is_used then
        (List.range layout.num_slots_per_page).filterMap fun sn =>
          if state.free_slots page sn then none else some (state.data ⟨page, sn⟩, ⟨page, sn⟩)
      else []

def machine (K V : Type) [DecidableEq K] : Machine (State K V) (Action K V) where
  initial := State.Created
  step := State.step layout

def opened_machine (K V : Type) [DecidableEq K] : Machine (State K V) (Action K V) where
  initial := State.Opened layout
  step := State.step layout

end

end Hiom.Viper.Pages
