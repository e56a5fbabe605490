import Hiom.Lib.Machine
import Hiom.Viper.Lock
import Mathlib

/-!
The locks of VPages, the registry of lock intents, and the lazy repair of locks
that a crash has left behind. Every atomic operation on a lock or on a slot of
the registry is a step.
-/

namespace Hiom.Viper.Intents

def kLockIntentSlots : Nat := 128
def num_deadlock_retries : Nat := 32

/-- The registry knows a page by its address. -/
structure Page where
  address : Nat
  nonnull : address ≠ 0
  deriving DecidableEq

/-- What locks a page: a put its own page, an update the page of the record, and
`free_occupied_slot` the page of the old record. -/
inductive Path where
  | put
  | update
  | free
  deriving DecidableEq

/-- What follows a repair. `free_occupied_slot` publishes its intent again, and
tries again if it has found its offset in the queue. -/
inductive After where
  | finish
  | retry (lock_value : version_lock_t) (encountered_own_offset : Bool)
  deriving DecidableEq

structure Seen where
  unlocks : Nat
  repairs : Nat
  deriving DecidableEq

/-- Where a call is that locks a page or repairs its lock. A put that frees an
old record on another page is two calls at once. `repair`, `scan`, `reload` and
`rescan` are the stages of `hiom_try_repair_stale_lock`, and the end of the
second scan is its compare-and-swap. -/
inductive Call where
  | idle
  | publish (path : Path) (page : Page) (i : Nat)
  | load (path : Path) (page : Page) (li_slot : Nat)
  | exchange (path : Path) (page : Page) (li_slot : Nat) (lock_value : version_lock_t)
      (retries : Nat)
  | holding (path : Path) (page : Page) (li_slot : Nat)
  | unlocking (path : Path) (page : Page) (li_slot : Nat) (current_version : version_lock_t)
  | clear (page : Page) (li_slot : Nat)
  | resolve (page : Page) (li_slot : Nat) (lock_value : version_lock_t)
  | withdraw (page : Page) (li_slot : Nat) (lock_value : version_lock_t)
      (encountered_own_offset : Bool)
  | repair (page : Page) (after : After)
  | scan (page : Page) (after : After) (i : Nat)
  | reload (page : Page) (after : After)
  | rescan (page : Page) (after : After) (lv : version_lock_t) (seen : Seen) (i : Nat)
  | republish (page : Page) (lock_value : version_lock_t) (encountered_own_offset : Bool) (i : Nat)
  deriving DecidableEq

variable {Id : Type}

/-- `seen` is not in the code: it counts the unlocks and the repairs of a page. -/
structure State (Id : Type) where
  version_lock : Page → version_lock_t
  lock_intents : Nat → Nat
  calls : Id → Call
  seen : Page → Seen

/-- `spurious` makes a weak compare-and-swap fail. A call under the lock goes on
when its caller says so. Clients own and disown the first page of a block
without its lock. -/
inductive Action (Id : Type) where
  | lock (id : Id) (path : Path) (page : Page)
  | repair (id : Id) (page : Page)
  | call (id : Id) (spurious : Bool)
  | unlock (id : Id)
  | resolved (id : Id) (encountered_own_offset : Bool)
  | own (page : Page)
  | disown (page : Page)

def Page.home (page : Page) : Nat := (page.address >>> 12) &&& (kLockIntentSlots - 1)

def After.call (page : Page) : After → Call
  | .finish => .idle
  | .retry lock_value encountered => .republish page lock_value encountered page.home

section

variable [DecidableEq Id]

def State.at (state : State Id) (id : Id) (call : Call) : State Id :=
  { state with calls := Function.update state.calls id call }

def State.set_intent (state : State Id) (i value : Nat) : State Id :=
  { state with lock_intents := Function.update state.lock_intents i value }

def State.set_lock (state : State Id) (page : Page) (lock : version_lock_t) (seen : Seen) :
    State Id :=
  { state with
    version_lock := Function.update state.version_lock page lock
    seen := Function.update state.seen page seen }

/-- `compare_exchange` has failed: give up, or try again with what it has found. -/
def Call.failed (path : Path) (page : Page) (li_slot : Nat) (found : version_lock_t)
    (retries : Nat) : Call :=
  match path with
  | .put => .exchange path page li_slot found.unlocked retries
  | .update => .clear page li_slot
  | .free =>
      if retries + 1 = num_deadlock_retries then .resolve page li_slot found.unlocked
      else .exchange path page li_slot found.unlocked (retries + 1)

def State.call_step (state : State Id) (id : Id) (spurious : Bool) : Option (State Id) :=
  match state.calls id with
  | .idle | .holding .. | .resolve .. => none
  | .publish path page i =>
      if state.lock_intents i = 0 then
        some ((state.set_intent i page.address).at id (.load path page i))
      else some (state.at id (.publish path page ((i + 1) &&& (kLockIntentSlots - 1))))
  | .load path page li_slot =>
      some (state.at id (.exchange path page li_slot (state.version_lock page).unlocked 0))
  | .exchange path page li_slot lock_value retries =>
      if state.version_lock page = lock_value ∧ spurious = false then
        some ((state.set_lock page (lock_value + 1#8) (state.seen page)).at id
          (.holding path page li_slot))
      else some (state.at id (.failed path page li_slot (state.version_lock page) retries))
  | .unlocking _ page li_slot current_version =>
      let seen := state.seen page
      some ((state.set_lock page current_version.released
        { seen with unlocks := seen.unlocks + 1 }).at id (.clear page li_slot))
  | .clear _ li_slot => some ((state.set_intent li_slot 0).at id .idle)
  | .withdraw page li_slot lock_value encountered =>
      some ((state.set_intent li_slot 0).at id (.repair page (.retry lock_value encountered)))
  | .repair page after =>
      if (state.version_lock page).is_locked then some (state.at id (.scan page after 0))
      else some (state.at id (after.call page))
  | .scan page after i =>
      if i < kLockIntentSlots then
        if state.lock_intents i = page.address then some (state.at id (after.call page))
        else some (state.at id (.scan page after (i + 1)))
      else some (state.at id (.reload page after))
  | .reload page after =>
      let lv := state.version_lock page
      if lv.is_locked then some (state.at id (.rescan page after lv (state.seen page) 0))
      else some (state.at id (after.call page))
  | .rescan page after lv seen i =>
      if i < kLockIntentSlots then
        if state.lock_intents i = page.address then some (state.at id (after.call page))
        else some (state.at id (.rescan page after lv seen (i + 1)))
      else if state.version_lock page = lv then
        let seen := state.seen page
        some ((state.set_lock page lv.unlocked { seen with repairs := seen.repairs + 1 }).at id
          (after.call page))
      else some (state.at id (after.call page))
  | .republish page lock_value encountered i =>
      if state.lock_intents i = 0 then
        some ((state.set_intent i page.address).at id
          (if encountered then .exchange .free page i lock_value 0 else .clear page i))
      else
        some (state.at id
          (.republish page lock_value encountered ((i + 1) &&& (kLockIntentSlots - 1))))

def State.step (state : State Id) : Action Id → Option (State Id)
  | .lock id path page =>
      match state.calls id with
      | .idle => some (state.at id (.publish path page page.home))
      | _ => none
  | .repair id page =>
      match state.calls id with
      | .idle => some (state.at id (.repair page .finish))
      | _ => none
  | .call id spurious => state.call_step id spurious
  | .unlock id =>
      match state.calls id with
      | .holding path page li_slot =>
          some (state.at id (.unlocking path page li_slot (state.version_lock page)))
      | _ => none
  | .resolved id encountered =>
      match state.calls id with
      | .resolve page li_slot lock_value =>
          some (state.at id (.withdraw page li_slot lock_value encountered))
      | _ => none
  | .own page =>
      some (state.set_lock page (state.version_lock page ||| CLIENT_BIT) (state.seen page))
  | .disown page =>
      some (state.set_lock page (state.version_lock page &&& NO_CLIENT_BIT) (state.seen page))

/-- After a crash the registry is empty and any locks may be set. -/
structure State.Opened (state : State Id) : Prop where
  lock_intents : ∀ i, state.lock_intents i = 0
  calls : ∀ id, state.calls id = .idle
  seen : ∀ page, state.seen page = ⟨0, 0⟩

def machine (Id : Type) [DecidableEq Id] : Machine (State Id) (Action Id) where
  initial := State.Opened
  step := State.step

end

/-! ### Who holds a lock -/

def Call.intent : Call → Option (Page × Nat)
  | .load _ page li_slot | .exchange _ page li_slot _ _ | .holding _ page li_slot
  | .unlocking _ page li_slot _ | .clear page li_slot | .resolve page li_slot _
  | .withdraw page li_slot _ _ => some (page, li_slot)
  | _ => none

def Call.held : Call → Option (Page × Nat)
  | .holding _ page li_slot | .unlocking _ page li_slot _ => some (page, li_slot)
  | _ => none

def State.Holds (state : State Id) (id : Id) (page : Page) : Prop :=
  ∃ li_slot, (state.calls id).held = some (page, li_slot)

def Call.page : Call → Option Page
  | .idle => none
  | .publish _ page _ | .load _ page _ | .exchange _ page _ _ _ | .holding _ page _
  | .unlocking _ page _ _ | .clear page _ | .resolve page _ _ | .withdraw page _ _ _
  | .repair page _ | .scan page _ _ | .reload page _ | .rescan page _ _ _ _
  | .republish page _ _ _ => some page

def State.Keeps (state : State Id) (id : Id) (page : Page) : Prop :=
  ∃ path li_slot, state.calls id = .holding path page li_slot

def State.Repairing (state : State Id) (id : Id) (page : Page) (seen : Seen) : Prop :=
  ∃ after lv i, state.calls id = .rescan page after lv seen i ∧ kLockIntentSlots ≤ i ∧
    state.version_lock page = lv

end Hiom.Viper.Intents
