import Hiom.Viper.Phantoms

/-!
Overwriting puts that free their old slots, while the owner of a page frees the
slots that others have queued: each call marks its slot free once, as long as
a call that gets the lock after all finds its own entry still in the queue and no
lock is repaired by two repairers at once.
-/

namespace Hiom.Viper.Intents

def Call.attempt : Call → Option Bool
  | .publish .free .. | .load .free .. | .exchange .free .. | .holding .free .. | .resolve .. =>
      some true
  | .withdraw _ _ _ encountered | .republish _ _ encountered _
  | .repair _ (.retry _ encountered) | .scan _ (.retry _ encountered) _
  | .reload _ (.retry _ encountered) | .rescan _ (.retry _ encountered) .. => some encountered
  | .clear .. | .idle => some false
  | _ => none

variable {Id : Type} [DecidableEq Id] {state next : State Id} {id : Id}

theorem After.attempt {page : Page} {after : After} {again : Bool}
    (scanning : (Call.repair page after).attempt = some again) :
    (after.call page).attempt = some again := by
  cases after with
  | finish => cases scanning
  | retry => exact scanning

theorem call_step_attempt {spurious again : Bool}
    (attempt : (state.calls id).attempt = some again)
    (stepped : state.call_step id spurious = some next) :
    (next.calls id).attempt = some again := by
  have at_id : ∀ (mid : State Id) (call : Call), call.attempt = some again →
      ((mid.at id call).calls id).attempt = some again := by
    intro mid call goes_on
    simpa only [State.at, Function.update_self] using goes_on
  simp only [State.call_step] at stepped
  split at stepped <;> rename_i stage <;> rw [stage] at attempt
  · cases stepped
  · cases stepped
  · cases stepped
  · -- publish
    rename_i path page i
    split at stepped <;> cases stepped <;> cases path <;> exact at_id _ _ attempt
  · -- load
    rename_i path page li_slot
    cases stepped
    cases path <;> exact at_id _ _ attempt
  · -- exchange
    rename_i path page li_slot lock_value retries
    cases path with
    | put | update => cases attempt
    | free =>
      split at stepped <;> cases stepped
      · exact at_id _ _ attempt
      · refine at_id _ _ ?_
        simp only [Call.failed]
        split <;> exact attempt
  · cases attempt
  · -- clear
    cases stepped
    exact at_id _ _ attempt
  · -- withdraw
    cases stepped
    exact at_id _ _ attempt
  · -- repair
    rename_i page after
    split at stepped <;> cases stepped
    · exact at_id _ _ (by cases after <;> exact attempt)
    · exact at_id _ _ (After.attempt attempt)
  · -- scan
    rename_i page after i
    have scanning : (Call.repair page after).attempt = some again := by
      cases after <;> exact attempt
    split at stepped
    · split at stepped <;> cases stepped
      · exact at_id _ _ (After.attempt scanning)
      · exact at_id _ _ (by cases after <;> exact attempt)
    · cases stepped
      exact at_id _ _ (by cases after <;> exact attempt)
  · -- reload
    rename_i page after
    have scanning : (Call.repair page after).attempt = some again := by
      cases after <;> exact attempt
    split at stepped <;> cases stepped
    · exact at_id _ _ (by cases after <;> exact attempt)
    · exact at_id _ _ (After.attempt scanning)
  · -- rescan
    rename_i page after lv seen i
    have scanning : (Call.repair page after).attempt = some again := by
      cases after <;> exact attempt
    split at stepped
    · split at stepped <;> cases stepped
      · exact at_id _ _ (After.attempt scanning)
      · exact at_id _ _ (by cases after <;> exact attempt)
    · split at stepped <;> cases stepped <;> exact at_id _ _ (After.attempt scanning)
  · -- republish
    rename_i page lock_value encountered i
    split at stepped <;> cases stepped
    · refine at_id _ _ ?_
      cases encountered <;> exact attempt
    · exact at_id _ _ attempt

def Action.agent : Action Id → Option Id
  | .lock id .. | .repair id _ | .call id _ | .unlock id | .resolved id _ => some id
  | .own _ | .disown _ => none

theorem step_calls {action : Action Id} (agent : Id) (away : action.agent ≠ some agent)
    (stepped : state.step action = some next) : next.calls agent = state.calls agent := by
  cases action with
  | call acting spurious =>
    obtain ⟨call, page, calls, -⟩ := call_step_local stepped
    rw [calls]
    exact Function.update_of_ne (fun same => away (congrArg some same.symm)) ..
  | lock acting path page =>
    obtain ⟨-, rfl⟩ := lock_step stepped
    exact Function.update_of_ne (fun same => away (congrArg some same.symm)) ..
  | unlock acting =>
    obtain ⟨_, _, _, -, rfl⟩ := unlock_step stepped
    exact Function.update_of_ne (fun same => away (congrArg some same.symm)) ..
  | resolved acting encountered =>
    obtain ⟨_, _, _, -, rfl⟩ := resolved_step stepped
    exact Function.update_of_ne (fun same => away (congrArg some same.symm)) ..
  | repair acting page =>
    simp only [State.step] at stepped
    split at stepped <;> cases stepped
    exact Function.update_of_ne (fun same => away (congrArg some same.symm)) ..
  | own page | disown page =>
    cases stepped
    rfl

end Hiom.Viper.Intents

namespace Hiom.Viper.Pages

open Intents (Page)

variable {K V : Type} {layout : Layout} {clean : Page → Prop} {state next : State K V} {id : Nat}

/-! ### What calls owe -/

def Stage.rest : Stage K V → Option (List Entry)
  | .scan _ todo new_offsets => some (todo ++ new_offsets)
  | .change (.queued _ entry todo new_offsets) _ => some (entry :: (todo ++ new_offsets))
  | _ => none

def Stage.spins : Stage K V → Bool
  | .scan .. | .change (.queued ..) _ | .release .. | .dequeue_erase .. | .dequeue_release .. => true
  | _ => false

def Stage.dequeues : Stage K V → Bool
  | .dequeue_spin .. | .dequeue_erase .. => true
  | _ => false

/-- What a call of `free_occupied_slot` has to free, and how far it is. -/
structure Debt (K : Type) where
  offset : KVOffset
  key : K
  inserted : Bool
  marks : Nat
  dequeues : Bool

def State.debt (state : State K V) (id : Nat) : Option (Debt K) :=
  (state.clients id).stage.free?.map fun free =>
    ⟨free.offset, free.key, free.deadlock_offset_inserted, state.marks id,
      (state.clients id).stage.dequeues⟩

def State.Owes (state : State K V) (id : Nat) (offset : KVOffset) (key : K) (inserted : Bool) :
    Prop :=
  ∃ dequeues, state.debt id = some ⟨offset, key, inserted, 0, dequeues⟩

/-- Puts only. The index yields the slot of a record of the key, which no other
call is about to mark free, and whoever gets the lock of a page after it has
queued its offset finds its entry still in the queue. -/
def State.Timely (layout : Layout) (state : State K V) (action : Action K V) : Prop :=
  state.Orderly layout action ∧ state.Alone action ∧ match action with
    | .update .. | .remove .. => False
    | .old_offset id (some offset) => ∀ put slot, (state.clients id).stage = .resolve put slot →
        state.free_slots offset.page offset.data_offset = false ∧
          (state.data offset).1 = put.key ∧ ∀ other key inserted, ¬state.Owes other offset key inserted
    | .client id => ∀ free, (state.clients id).stage = .acquire free →
        state.locks.Keeps (.other id) free.offset.page → free.deadlock_offset_inserted = true →
          ⟨free.offset, id⟩ ∈ state.deadlock_offsets
    | _ => True

/-- What a stage of a call says of the marks of its slot, the attempts of its
agent, and its entry. -/
def Stage.Due (id marks : Nat) (call : Intents.Call) : Stage K V → Prop
  | .change (.own free) _ => marks = 0 ∧ free.deadlock_offset_inserted = false
  | .acquire free => marks ≤ 1 ∧ ∃ again, call.attempt = some again ∧
      (free.deadlock_offset_inserted = false → marks = 0 ∧ again = true) ∧
      (free.deadlock_offset_inserted = true → again = free.encountered_own_offset) ∧
      (again = false → marks = 1)
  | .change (.target free) _ => marks = 0 ∧
      (free.deadlock_offset_inserted = true → free.encountered_own_offset = true)
  | .spin free => marks ≤ 1 ∧ (free.deadlock_offset_inserted = false → marks = 0)
  | .scan free todo _ | .change (.queued free _ todo _) _ => marks ≤ 1 ∧
      free.deadlock_offset_inserted = true ∧
      (free.encountered_own_offset = false → marks = 1 ∨ ⟨free.offset, id⟩ ∈ todo)
  | .release free => marks ≤ 1 ∧ free.deadlock_offset_inserted = true ∧
      (free.encountered_own_offset = false → marks = 1)
  | .dequeue_spin free | .dequeue_erase free => marks = 1 ∧ free.deadlock_offset_inserted = true
  | .dequeue_release _ | .finish _ => marks = 1
  | _ => True

/-- The slots that calls owe hold records of their keys, each is owed by one
call, and those that calls take out of the queue are free. -/
structure Owed (state : State K V) : Prop where
  ready : ∀ id offset key inserted, state.Owes id offset key inserted →
    state.ready offset.page = true
  taken : ∀ id offset key inserted, state.Owes id offset key inserted →
    state.free_slots offset.page offset.data_offset = false
  key : ∀ id offset key inserted, state.Owes id offset key inserted → (state.data offset).1 = key
  apart : ∀ id other offset key key' inserted inserted', state.Owes id offset key inserted →
    state.Owes other offset key' inserted' → id = other
  freed : ∀ id debt, state.debt id = some debt → debt.dequeues = true →
    state.free_slots debt.offset.page debt.offset.data_offset = true

def State.Contents (state : State K V) (contents : List Entry) : Prop :=
  (∃ id, (state.clients id).stage.rest = some contents) ∨
    (∀ id, (state.clients id).stage.rest = none) ∧ contents = state.deadlock_offsets

def State.Entered (state : State K V) (entry : Entry) : Prop :=
  ∃ debt, state.debt entry.client = some debt ∧ debt.offset = entry.offset ∧
    debt.inserted = true ∧ (debt.marks = 0 ∨ debt.dequeues = true)

structure Queue (layout : Layout) (state : State K V) : Prop where
  lock : ∀ id, (state.clients id).stage.spins = true → state.deadlock_offset_lock = true
  alone : ∀ id other, (state.clients id).stage.spins = true →
    (state.clients other).stage.spins = true → id = other
  nodup : ∀ contents, state.Contents contents → (contents.map Entry.client).Nodup
  entered : ∀ contents entry, state.Contents contents → entry ∈ contents → state.Entered entry
  queued : ∀ contents id offset key, state.Contents contents → state.Owes id offset key true →
    ⟨offset, id⟩ ∈ contents
  scanned : ∀ id contents entry, (state.clients id).stage.rest = some contents →
    entry ∈ state.deadlock_offsets → entry.offset.page ≠ (state.clients id).v_page layout →
      entry ∈ contents

structure Discharge (layout : Layout) (state : State K V) : Prop where
  owed : Owed state
  queue : Queue layout state
  due : ∀ id, (state.clients id).stage.Due id (state.marks id) (state.locks.calls (.other id))
  puts : ∀ id free, (state.clients id).stage.free? = some free → free.put.isSome = true

theorem spins_of_rest {stage : Stage K V} {contents : List Entry}
    (rest : stage.rest = some contents) : stage.spins = true := by
  cases stage with
  | scan => rfl
  | change site bits => cases site <;> first | rfl | cases rest
  | _ => cases rest

theorem calm {stage : Stage K V} (outside : stage.free? = none) :
    stage.rest = none ∧ stage.spins = false ∧ stage.dequeues = false := by
  cases stage with
  | change site bits => cases site <;> first | exact ⟨rfl, rfl, rfl⟩ | cases outside
  | _ => first | exact ⟨rfl, rfl, rfl⟩ | cases outside

theorem Due.outside {stage : Stage K V} {marks : Nat} {call : Intents.Call}
    (outside : stage.free? = none) : stage.Due id marks call := by
  cases stage with
  | change site bits => cases site <;> trivial
  | _ => trivial

theorem Contents.congr {contents : List Entry}
    (rest : ∀ id, (next.clients id).stage.rest = (state.clients id).stage.rest)
    (queue : next.deadlock_offsets = state.deadlock_offsets) :
    next.Contents contents ↔ state.Contents contents := by
  simp only [State.Contents, rest, queue]

theorem Owes.congr {offset : KVOffset} {key : K} {inserted : Bool}
    (debt : next.debt id = state.debt id) :
    next.Owes id offset key inserted ↔ state.Owes id offset key inserted := by
  simp only [State.Owes, debt]

/-! ### What a step leaves alone -/

def Kept (state next : State K V) (offset : KVOffset) : Prop :=
  state.ready offset.page = true → state.free_slots offset.page offset.data_offset = false →
    next.ready offset.page = true ∧ next.free_slots offset.page offset.data_offset = false ∧
      (next.data offset).1 = (state.data offset).1

theorem Owed.frame (owed : Owed state) (debts : ∀ id, next.debt id = state.debt id)
    (kept : ∀ offset, Kept state next offset)
    (freed : ∀ id debt, state.debt id = some debt → debt.dequeues = true →
      state.free_slots debt.offset.page debt.offset.data_offset = true →
        next.free_slots debt.offset.page debt.offset.data_offset = true) : Owed next := by
  have steady : ∀ id offset key inserted, next.Owes id offset key inserted →
      next.ready offset.page = true ∧ next.free_slots offset.page offset.data_offset = false ∧
        (next.data offset).1 = key := by
    intro id offset key inserted owes
    rw [Owes.congr (debts id)] at owes
    obtain ⟨ready, taken, same⟩ := kept offset (owed.ready _ _ _ _ owes) (owed.taken _ _ _ _ owes)
    exact ⟨ready, taken, same.trans (owed.key _ _ _ _ owes)⟩
  refine ⟨fun _ _ _ _ owes => (steady _ _ _ _ owes).1, fun _ _ _ _ owes => (steady _ _ _ _ owes).2.1,
    fun _ _ _ _ owes => (steady _ _ _ _ owes).2.2, ?_, fun id debt here leaving => ?_⟩
  · intro id other offset key key' inserted inserted' mine theirs
    rw [Owes.congr (debts _)] at mine theirs
    exact owed.apart _ _ _ _ _ _ _ mine theirs
  · rw [debts] at here
    exact freed id debt here leaving (owed.freed id debt here leaving)

theorem Queue.frame (queue : Queue layout state) (debts : ∀ id, next.debt id = state.debt id)
    (rest : ∀ id, (next.clients id).stage.rest = (state.clients id).stage.rest)
    (spins : ∀ id, (next.clients id).stage.spins = (state.clients id).stage.spins)
    (page : ∀ id contents, (state.clients id).stage.rest = some contents →
      (next.clients id).v_page layout = (state.clients id).v_page layout)
    (offsets : next.deadlock_offsets = state.deadlock_offsets)
    (lock : next.deadlock_offset_lock = state.deadlock_offset_lock) : Queue layout next := by
  refine ⟨?_, ?_, ?_, ?_, ?_, fun id contents entry scanning member away => ?_⟩
  · simpa only [spins, lock] using queue.lock
  · simpa only [spins] using queue.alone
  · simpa only [Contents.congr rest offsets] using queue.nodup
  · simpa only [Contents.congr rest offsets, State.Entered, debts] using queue.entered
  · simpa only [Contents.congr rest offsets, State.Owes, debts] using queue.queued
  · rw [rest] at scanning
    rw [offsets] at member
    rw [page id contents scanning] at away
    exact queue.scanned id contents entry scanning member away

/-- A step that changes what one call owes. -/
theorem Owed.change (id : Nat) (owed : Owed state)
    (debts : ∀ other, other ≠ id → next.debt other = state.debt other)
    (kept : ∀ other offset key inserted, other ≠ id → state.Owes other offset key inserted →
      Kept state next offset)
    (freed : ∀ other debt, other ≠ id → state.debt other = some debt → debt.dequeues = true →
      state.free_slots debt.offset.page debt.offset.data_offset = true →
        next.free_slots debt.offset.page debt.offset.data_offset = true)
    (mine : ∀ offset key inserted, next.Owes id offset key inserted →
      next.ready offset.page = true ∧ next.free_slots offset.page offset.data_offset = false ∧
        (next.data offset).1 = key ∧ ∀ other key' inserted', other ≠ id →
          ¬state.Owes other offset key' inserted')
    (leaves : ∀ debt, next.debt id = some debt → debt.dequeues = true →
      next.free_slots debt.offset.page debt.offset.data_offset = true) : Owed next := by
  have steady : ∀ other offset key inserted, next.Owes other offset key inserted →
      next.ready offset.page = true ∧ next.free_slots offset.page offset.data_offset = false ∧
        (next.data offset).1 = key := by
    intro other offset key inserted owes
    by_cases here : other = id
    · subst here
      obtain ⟨ready, taken, same, -⟩ := mine offset key inserted owes
      exact ⟨ready, taken, same⟩
    · rw [Owes.congr (debts other here)] at owes
      obtain ⟨ready, taken, same⟩ :=
        kept other offset key inserted here owes (owed.ready _ _ _ _ owes) (owed.taken _ _ _ _ owes)
      exact ⟨ready, taken, same.trans (owed.key _ _ _ _ owes)⟩
  refine ⟨fun _ _ _ _ owes => (steady _ _ _ _ owes).1, fun _ _ _ _ owes => (steady _ _ _ _ owes).2.1,
    fun _ _ _ _ owes => (steady _ _ _ _ owes).2.2, ?_, fun other debt here leaving => ?_⟩
  · intro one other offset key key' inserted inserted' first second
    by_cases here : one = id
    · by_cases there : other = id
      · rw [here, there]
      · subst here
        rw [Owes.congr (debts other there)] at second
        exact absurd second ((mine offset key inserted first).2.2.2 other _ _ there)
    · by_cases there : other = id
      · subst there
        rw [Owes.congr (debts one here)] at first
        exact absurd first ((mine offset key' inserted' second).2.2.2 one _ _ here)
      · rw [Owes.congr (debts _ here)] at first
        rw [Owes.congr (debts _ there)] at second
        exact owed.apart _ _ _ _ _ _ _ first second
  · by_cases mine : other = id
    · subst mine
      exact leaves debt here leaving
    · rw [debts other mine] at here
      exact freed other debt mine here leaving (owed.freed other debt here leaving)

/-- A step that changes what one call owes, and not the queue. -/
theorem Queue.settle (id : Nat) (queue : Queue layout state)
    (debts : ∀ other, other ≠ id → next.debt other = state.debt other)
    (rest : ∀ id, (next.clients id).stage.rest = (state.clients id).stage.rest)
    (spins : ∀ id, (next.clients id).stage.spins = (state.clients id).stage.spins)
    (page : ∀ id, (next.clients id).v_page layout = (state.clients id).v_page layout)
    (offsets : next.deadlock_offsets = state.deadlock_offsets)
    (lock : next.deadlock_offset_lock = state.deadlock_offset_lock)
    (entered : ∀ entry, entry.client = id → state.Entered entry → next.Entered entry)
    (owes : ∀ offset key, next.Owes id offset key true → state.Owes id offset key true) :
    Queue layout next := by
  refine ⟨?_, ?_, ?_, fun contents entry current member => ?_,
    fun contents other offset key current owing => ?_, fun other contents entry scanning => ?_⟩
  · simpa only [spins, lock] using queue.lock
  · simpa only [spins] using queue.alone
  · simpa only [Contents.congr rest offsets] using queue.nodup
  · rw [Contents.congr rest offsets] at current
    have before := queue.entered contents entry current member
    by_cases here : entry.client = id
    · exact entered entry here before
    · unfold State.Entered
      rw [debts _ here]
      exact before
  · rw [Contents.congr rest offsets] at current
    refine queue.queued contents other offset key current ?_
    by_cases here : other = id
    · subst here
      exact owes offset key owing
    · exact (Owes.congr (debts other here)).mp owing
  · rw [rest] at scanning
    rw [offsets, page]
    exact queue.scanned other contents entry scanning

/-- The queue when at most one client has its lock. -/
theorem Queue.of_contents (id : Nat) (contents : List Entry)
    (others : ∀ other, other ≠ id → (next.clients other).stage.spins = false)
    (lock : (next.clients id).stage.spins = true → next.deadlock_offset_lock = true)
    (here : (next.clients id).stage.rest = some contents ∨
      (next.clients id).stage.rest = none ∧ contents = next.deadlock_offsets)
    (nodup : (contents.map Entry.client).Nodup)
    (entered : ∀ entry, entry ∈ contents → next.Entered entry)
    (queued : ∀ other offset key, next.Owes other offset key true → ⟨offset, other⟩ ∈ contents)
    (scanned : ∀ entry, entry ∈ next.deadlock_offsets →
      entry.offset.page ≠ (next.clients id).v_page layout → entry ∈ contents) :
    Queue layout next := by
  have only : ∀ other, (next.clients other).stage.spins = true → other = id := by
    intro other spinning
    by_contra away
    cases (others other away).symm.trans spinning
  have same : ∀ other rest, (next.clients other).stage.rest = some rest →
      other = id ∧ rest = contents := by
    intro other rest scanning
    have mine := only other (spins_of_rest scanning)
    subst mine
    refine ⟨rfl, ?_⟩
    rcases here with here | ⟨none, -⟩
    · exact Option.some.inj (scanning.symm.trans here)
    · cases none.symm.trans scanning
  have current : ∀ rest, next.Contents rest → rest = contents := by
    rintro rest (⟨other, scanning⟩ | ⟨calm, rfl⟩)
    · exact (same other rest scanning).2
    · rcases here with here | ⟨-, rfl⟩
      · cases (calm id).symm.trans here
      · rfl
  refine ⟨fun other spinning => ?_, fun one other first second => ?_, fun rest holds => ?_,
    fun rest entry holds member => ?_, fun rest other offset key holds owes => ?_,
    fun other rest entry scanning member away => ?_⟩
  · have mine := only other spinning
    subst mine
    exact lock spinning
  · exact (only one first).trans (only other second).symm
  · rw [current rest holds]
    exact nodup
  · rw [current rest holds] at member
    exact entered entry member
  · rw [current rest holds]
    exact queued other offset key owes
  · obtain ⟨rfl, rfl⟩ := same other rest scanning
    exact scanned entry member away

theorem Due.attempt {stage : Stage K V} {marks : Nat} {call call' : Intents.Call}
    (due : stage.Due id marks call)
    (attempt : ∀ free again, stage = .acquire free → call.attempt = some again →
      call'.attempt = some again) : stage.Due id marks call' := by
  cases stage with
  | acquire free =>
    obtain ⟨few, again, goes_on, rest⟩ := due
    exact ⟨few, again, attempt free again rfl goes_on, rest⟩
  | change site bits => cases site <;> exact due
  | _ => exact due

structure Still (state next : State K V) : Prop where
  free_slots : next.free_slots = state.free_slots
  data : next.data = state.data
  ready : ∀ page, state.ready page = true → next.ready page = true

theorem Still.kept (still : Still state next) (offset : KVOffset) : Kept state next offset := by
  intro ready taken
  rw [still.free_slots, still.data]
  exact ⟨still.ready _ ready, taken, rfl⟩

theorem Still.freed (still : Still state next) (debt : Debt K)
    (free : state.free_slots debt.offset.page debt.offset.data_offset = true) :
    next.free_slots debt.offset.page debt.offset.data_offset = true := by
  rw [still.free_slots]
  exact free

/-- A step of a client outside `free_occupied_slot`. -/
theorem Discharge.outside (id : Nat) (discharge : Discharge layout state)
    (clients : ∀ other, other ≠ id → next.clients other = state.clients other)
    (before : (state.clients id).stage.free? = none) (after : (next.clients id).stage.free? = none)
    (marks : next.marks = state.marks)
    (calls : ∀ other, other ≠ id → next.locks.calls (.other other) = state.locks.calls (.other other))
    (offsets : next.deadlock_offsets = state.deadlock_offsets)
    (lock : next.deadlock_offset_lock = state.deadlock_offset_lock)
    (kept : ∀ offset, Kept state next offset)
    (freed : ∀ other debt, state.debt other = some debt → debt.dequeues = true →
      state.free_slots debt.offset.page debt.offset.data_offset = true →
        next.free_slots debt.offset.page debt.offset.data_offset = true) :
    Discharge layout next := by
  obtain ⟨rest, spins, -⟩ := calm before
  obtain ⟨rest', spins', -⟩ := calm after
  have debts : ∀ other, next.debt other = state.debt other := by
    intro other
    by_cases here : other = id
    · simp only [State.debt, here, before, after, Option.map_none]
    · simp only [State.debt, clients other here, marks]
  refine ⟨discharge.owed.frame debts kept freed,
    discharge.queue.frame debts (fun other => ?_) (fun other => ?_) (fun other contents scanning => ?_)
      offsets lock, fun other => ?_, fun other free calling => ?_⟩
  · by_cases here : other = id
    · rw [here, rest, rest']
    · rw [clients other here]
  · by_cases here : other = id
    · rw [here, spins, spins']
    · rw [clients other here]
  · have away : other ≠ id := by
      rintro rfl
      cases rest.symm.trans scanning
    rw [clients other away]
  · by_cases here : other = id
    · rw [here]
      exact Due.outside after
    · rw [clients other here, calls other here, marks]
      exact discharge.due other
  · by_cases here : other = id
    · rw [here] at calling
      cases after.symm.trans calling
    · rw [clients other here] at calling
      exact discharge.puts other free calling

/-- A step of a client outside `free_occupied_slot` that leaves the records. -/
theorem Discharge.quiet {stage : Stage K V} (discharge : Discharge layout state)
    (clients : next.clients = Function.update state.clients id
      { state.clients id with stage := stage })
    (before : (state.clients id).stage.free? = none) (after : stage.free? = none)
    (marks : next.marks = state.marks)
    (calls : ∀ other, other ≠ id → next.locks.calls (.other other) = state.locks.calls (.other other))
    (offsets : next.deadlock_offsets = state.deadlock_offsets)
    (lock : next.deadlock_offset_lock = state.deadlock_offset_lock) (still : Still state next) :
    Discharge layout next := by
  refine discharge.outside id (fun other away => by rw [clients, Function.update_of_ne away]) before
    ?_ marks calls offsets lock still.kept (fun _ debt _ _ => still.freed debt)
  rw [clients, Function.update_self]
  exact after

/-- A step of a call that leaves what it owes, the queue and the records. -/
theorem Discharge.within {stage : Stage K V} (discharge : Discharge layout state)
    (clients : next.clients = Function.update state.clients id
      { state.clients id with stage := stage })
    (debt : next.debt id = state.debt id) (rest : stage.rest = (state.clients id).stage.rest)
    (spins : stage.spins = (state.clients id).stage.spins) (marks : next.marks = state.marks)
    (calls : ∀ other, other ≠ id → next.locks.calls (.other other) = state.locks.calls (.other other))
    (offsets : next.deadlock_offsets = state.deadlock_offsets)
    (lock : next.deadlock_offset_lock = state.deadlock_offset_lock) (still : Still state next)
    (due : stage.Due id (state.marks id) (next.locks.calls (.other id)))
    (puts : ∀ free, stage.free? = some free → free.put.isSome = true) : Discharge layout next := by
  have at_id : next.clients id = { state.clients id with stage := stage } := by
    rw [clients, Function.update_self]
  have at_other : ∀ other, other ≠ id → next.clients other = state.clients other :=
    fun other away => by rw [clients, Function.update_of_ne away]
  have debts : ∀ other, next.debt other = state.debt other := by
    intro other
    by_cases here : other = id
    · rw [here, debt]
    · simp only [State.debt, at_other other here, marks]
  refine ⟨discharge.owed.frame debts still.kept (fun _ debt _ _ => still.freed debt),
    discharge.queue.frame debts (fun other => ?_) (fun other => ?_) (fun other _ _ => ?_)
      offsets lock, fun other => ?_, fun other free calling => ?_⟩ <;> by_cases here : other = id
  · rw [here, at_id, rest]
  · rw [at_other other here]
  · rw [here, at_id, spins]
  · rw [at_other other here]
  · rw [here, at_id]
    rfl
  · rw [at_other other here]
  · rw [here, at_id, marks]
    exact due
  · rw [at_other other here, calls other here, marks]
    exact discharge.due other
  · rw [here, at_id] at calling
    exact puts free calling
  · rw [at_other other here] at calling
    exact discharge.puts other free calling

/-- Agents go on by themselves. -/
theorem Discharge.agents {action : Intents.Action Agent} (discharge : Discharge layout state)
    (stepped : state.with_locks action = some next)
    (attempts : ∀ other free again, (state.clients other).stage = .acquire free →
      (state.locks.calls (.other other)).attempt = some again →
        (next.locks.calls (.other other)).attempt = some again) : Discharge layout next := by
  obtain ⟨locks, possible, rfl⟩ := with_locks_some stepped
  exact ⟨discharge.owed.frame (fun _ => rfl) (fun _ ready taken => ⟨ready, taken, rfl⟩)
      (fun _ _ _ _ free => free),
    discharge.queue.frame (fun _ => rfl) (fun _ => rfl) (fun _ => rfl) (fun _ _ _ => rfl) rfl rfl,
    fun other => Due.attempt (discharge.due other) (attempts other), discharge.puts⟩

theorem Discharge.unlocks_other (discharge : Discharge layout state)
    (elsewhere : ∀ free, (state.clients id).stage ≠ .acquire free)
    (stepped : state.with_locks (.unlock (.other id)) = some next) : Discharge layout next := by
  apply discharge.agents stepped
  intro other free again here goes_on
  have away : other ≠ id := by
    intro same
    rw [same] at here
    exact elsewhere free here
  obtain ⟨locks, possible, rfl⟩ := with_locks_some stepped
  rw [Intents.step_calls _ (by simpa [Intents.Action.agent] using away.symm) possible]
  exact goes_on

theorem Discharge.unlocks_own (discharge : Discharge layout state)
    (stepped : state.with_locks (.unlock (.own id)) = some next) : Discharge layout next := by
  refine discharge.agents stepped (fun other free again _ goes_on => ?_)
  obtain ⟨locks, possible, rfl⟩ := with_locks_some stepped
  rw [Intents.step_calls (.other other) (by simp [Intents.Action.agent]) possible]
  exact goes_on

/-! ### The steps of a call -/

theorem debt_other {other : Nat} (clients : next.clients other = state.clients other)
    (marks : next.marks other = state.marks other) : next.debt other = state.debt other := by
  simp only [State.debt, clients, marks]

theorem debt_free {free : Free K} (calling : (state.clients id).stage.free? = some free) :
    state.debt id = some ⟨free.offset, free.key, free.deadlock_offset_inserted, state.marks id,
      (state.clients id).stage.dequeues⟩ := by
  simp only [State.debt, calling, Option.map_some]

/-- A call goes on and changes what it owes, but not the queue. -/
theorem Discharge.settle {stage : Stage K V} (discharge : Discharge layout state)
    (clients : next.clients = Function.update state.clients id
      { state.clients id with stage := stage })
    (rest : stage.rest = (state.clients id).stage.rest)
    (spins : stage.spins = (state.clients id).stage.spins)
    (marks : ∀ other, other ≠ id → next.marks other = state.marks other)
    (calls : ∀ other, other ≠ id → next.locks.calls (.other other) = state.locks.calls (.other other))
    (offsets : next.deadlock_offsets = state.deadlock_offsets)
    (lock : next.deadlock_offset_lock = state.deadlock_offset_lock)
    (owed : Owed next)
    (entered : ∀ entry, entry.client = id → state.Entered entry → next.Entered entry)
    (owes : ∀ offset key, next.Owes id offset key true → state.Owes id offset key true)
    (due : stage.Due id (next.marks id) (next.locks.calls (.other id)))
    (puts : ∀ free, stage.free? = some free → free.put.isSome = true) : Discharge layout next := by
  have at_id : next.clients id = { state.clients id with stage := stage } := by
    rw [clients, Function.update_self]
  have at_other : ∀ other, other ≠ id → next.clients other = state.clients other :=
    fun other away => by rw [clients, Function.update_of_ne away]
  refine ⟨owed, discharge.queue.settle id (fun other away => debt_other (at_other other away)
      (marks other away)) (fun other => ?_) (fun other => ?_) (fun other => ?_) offsets lock entered
      owes, fun other => ?_, fun other free calling => ?_⟩ <;> by_cases here : other = id
  · rw [here, at_id, rest]
  · rw [at_other other here]
  · rw [here, at_id, spins]
  · rw [at_other other here]
  · rw [here, at_id]
    rfl
  · rw [at_other other here]
  · rw [here, at_id]
    exact due
  · rw [at_other other here, calls other here, marks other here]
    exact discharge.due other
  · rw [here, at_id] at calling
    exact puts free calling
  · rw [at_other other here] at calling
    exact discharge.puts other free calling

/-- A put calls `free_occupied_slot` for the slot of a record of its key. -/
theorem Discharge.begin_free {free : Free K} (discharge : Discharge layout state)
    (before : (state.clients id).stage.free? = none) (put : free.put.isSome = true)
    (outside : free.deadlock_offset_inserted = false)
    (ready : state.ready free.offset.page = true)
    (taken : state.free_slots free.offset.page free.offset.data_offset = false)
    (key : (state.data free.offset).1 = free.key)
    (apart : ∀ other key inserted, ¬state.Owes other free.offset key inserted)
    (stepped : state.begin_free layout id free = some next) : Discharge layout next := by
  have undebted : state.debt id = none := by
    simp only [State.debt, before, Option.map_none]
  obtain ⟨rest, spins, -⟩ := calm before
  -- the call owes its slot, and has not put it into the queue
  have begins : ∀ (after : State K V) (stage : Stage K V),
      after.clients = Function.update state.clients id { state.clients id with stage := stage } →
      after.marks = Function.update state.marks id 0 → stage.free? = some free →
      stage.rest = none → stage.spins = false → stage.dequeues = false →
      after.free_slots = state.free_slots → after.data = state.data → after.ready = state.ready →
      after.deadlock_offsets = state.deadlock_offsets →
      after.deadlock_offset_lock = state.deadlock_offset_lock →
      (∀ other, other ≠ id → after.locks.calls (.other other) = state.locks.calls (.other other)) →
      stage.Due id 0 (after.locks.calls (.other id)) → Discharge layout after := by
    intro after stage clients marks calling rest' spins' dequeues free_slots data same_ready offsets
      lock calls due
    have at_id : after.clients id = { state.clients id with stage := stage } := by
      rw [clients, Function.update_self]
    have others : ∀ other, other ≠ id → after.marks other = state.marks other :=
      fun other away => by rw [marks, Function.update_of_ne away]
    have debt : after.debt id = some ⟨free.offset, free.key, false, 0, false⟩ := by
      rw [debt_free (by rw [at_id]; exact calling), at_id, marks, Function.update_self, dequeues,
        outside]
    have still : Still state after := ⟨free_slots, data, fun _ set => by rwa [same_ready]⟩
    refine discharge.settle clients (rest'.trans rest.symm) (spins'.trans spins.symm) others calls
      offsets lock ?_ (fun entry mine entered => ?_) (fun offset key owes => ?_) ?_ (fun other same => ?_)
    · refine discharge.owed.change id (fun other away => debt_other ?_ (others other away))
        (fun _ offset _ _ _ _ => still.kept offset) (fun _ debt _ _ _ => still.freed debt)
        (fun offset key inserted owes => ?_) (fun owed here leaving => ?_)
      · rw [clients, Function.update_of_ne away]
      · obtain ⟨_, owes⟩ := owes
        cases debt.symm.trans owes
        rw [same_ready, free_slots, data]
        exact ⟨ready, taken, key, fun other key inserted _ => apart other key inserted⟩
      · cases debt.symm.trans here
        cases leaving
    · obtain ⟨owed, here, -⟩ := entered
      rw [mine, undebted] at here
      cases here
    · obtain ⟨_, owes⟩ := owes
      cases debt.symm.trans owes
    · rw [marks, Function.update_self]
      exact due
    · cases calling.symm.trans same
      exact put
  simp only [State.begin_free] at stepped
  split at stepped
  · cases stepped
    exact begins _ (.change (.own free) none) rfl rfl rfl rfl rfl rfl rfl rfl rfl rfl rfl
      (fun _ _ => rfl) ⟨rfl, outside⟩
  · obtain ⟨locks, possible, rfl⟩ := with_locks_some stepped
    obtain ⟨-, rfl⟩ := Intents.lock_step possible
    refine begins _ (.acquire free) rfl rfl rfl rfl rfl rfl rfl rfl rfl rfl rfl
      (fun other away => Function.update_of_ne (by simpa using away) ..)
      ⟨Nat.zero_le 1, true, ?_, fun _ => ⟨rfl, rfl⟩, fun inserted => ?_, by intro here; cases here⟩
    · change (Function.update state.locks.calls _ _ _).attempt = some true
      rw [Function.update_self]
      rfl
    · cases outside.symm.trans inserted

/-- A slot is marked free: the other slots stay as they are. -/
theorem marked_kept {marked offset : KVOffset} (away : offset ≠ marked)
    (bits : next.free_slots = Function.update state.free_slots marked.page
      (Function.update (state.free_slots marked.page) marked.data_offset true))
    (data : next.data = state.data) (ready : next.ready = state.ready) :
    Kept state next offset := by
  intro set taken
  rw [bits, data, ready]
  refine ⟨set, ?_, rfl⟩
  by_cases page : offset.page = marked.page
  · rw [page, Function.update_self, Function.update_of_ne, ← page]
    · exact taken
    · intro slot
      apply away
      cases offset
      cases marked
      cases page
      cases slot
      rfl
  · rw [Function.update_of_ne page]
    exact taken

theorem marked_free {marked offset : KVOffset}
    (bits : next.free_slots = Function.update state.free_slots marked.page
      (Function.update (state.free_slots marked.page) marked.data_offset true))
    (free : offset = marked ∨ state.free_slots offset.page offset.data_offset = true) :
    next.free_slots offset.page offset.data_offset = true := by
  rw [bits]
  by_cases page : offset.page = marked.page
  · rw [page, Function.update_self, Function.update_apply]
    split
    · rfl
    · rename_i slot
      rcases free with rfl | free
      · exact absurd rfl slot
      · rwa [← page]
  · rw [Function.update_of_ne page]
    rcases free with rfl | free
    · exact absurd rfl page
    · exact free

/-- A call marks its slot free. -/
theorem Discharge.marked {free : Free K} {stage : Stage K V} (discharge : Discharge layout state)
    (calling : (state.clients id).stage.free? = some free) (unmarked : state.marks id = 0)
    (clients : next.clients = Function.update state.clients id
      { state.clients id with stage := stage })
    (bits : next.free_slots = Function.update state.free_slots free.offset.page
      (Function.update (state.free_slots free.offset.page) free.offset.data_offset true))
    (marks : next.marks = Function.update state.marks id (state.marks id + 1))
    (locks : next.locks = state.locks) (data : next.data = state.data)
    (ready : next.ready = state.ready) (offsets : next.deadlock_offsets = state.deadlock_offsets)
    (lock : next.deadlock_offset_lock = state.deadlock_offset_lock)
    (rest : stage.rest = (state.clients id).stage.rest)
    (spins : stage.spins = (state.clients id).stage.spins)
    (still : stage.free? = some free)
    (leaves : free.deadlock_offset_inserted = true → stage.dequeues = true)
    (due : stage.Due id 1 (state.locks.calls (.other id))) : Discharge layout next := by
  have owing : state.Owes id free.offset free.key free.deadlock_offset_inserted := by
    refine ⟨(state.clients id).stage.dequeues, ?_⟩
    rw [debt_free calling, unmarked]
  have at_id : (next.clients id).stage = stage := by
    rw [clients, Function.update_self]
  have counted : next.marks id = 1 := by
    rw [marks, Function.update_self, unmarked]
  have debt : next.debt id = some ⟨free.offset, free.key, free.deadlock_offset_inserted, 1,
      stage.dequeues⟩ := by
    rw [debt_free (by rw [at_id]; exact still), counted, at_id]
  have others : ∀ other, other ≠ id → next.marks other = state.marks other :=
    fun other away => by rw [marks, Function.update_of_ne away]
  refine discharge.settle clients rest spins others (fun _ _ => by rw [locks]) offsets lock ?_
    (fun entry mine entered => ?_) (fun offset key owes => ?_) ?_ (fun other same => ?_)
  · refine discharge.owed.change id (fun other away => debt_other ?_ (others other away))
      (fun other offset key inserted away owes => ?_)
      (fun _ owed _ _ _ free => marked_free bits (.inr free)) (fun offset key inserted owes => ?_)
      (fun owed here leaving => ?_)
    · rw [clients, Function.update_of_ne away]
    · refine marked_kept ?_ bits data ready
      rintro rfl
      exact away (discharge.owed.apart _ _ _ _ _ _ _ owes owing)
    · obtain ⟨_, owes⟩ := owes
      cases debt.symm.trans owes
    · cases debt.symm.trans here
      exact marked_free bits (.inl rfl)
  · obtain ⟨owed, here, same, inserted, -⟩ := entered
    rw [mine, debt_free calling] at here
    cases here
    refine ⟨⟨free.offset, free.key, free.deadlock_offset_inserted, 1, stage.dequeues⟩, ?_, same,
      inserted, .inr (leaves inserted)⟩
    rw [mine]
    exact debt
  · obtain ⟨_, owes⟩ := owes
    rw [debt] at owes
    have none := congrArg Debt.marks (Option.some.inj owes)
    cases none
  · rw [counted, locks]
    exact due
  · cases still.symm.trans same
    exact discharge.puts id free calling

theorem Due.drained {stage : Stage K V} {call : Intents.Call} {free : Free K}
    (due : stage.Due id 0 call) (calling : stage.free? = some free)
    (inserted : free.deadlock_offset_inserted = true)
    (away : ∀ bits, stage ≠ .change (.target free) bits) : stage.Due id 1 call := by
  cases stage with
  | change site bits =>
    cases site with
    | claim => cases calling
    | own =>
      cases calling
      cases due.2.symm.trans inserted
    | queued =>
      cases calling
      exact ⟨le_rfl, inserted, fun _ => .inl rfl⟩
    | target =>
      cases calling
      exact absurd rfl (away bits)
  | acquire =>
    cases calling
    obtain ⟨-, again, attempt, -, found, -⟩ := due
    refine ⟨le_rfl, again, attempt, fun outside => ?_, found, fun _ => rfl⟩
    cases outside.symm.trans inserted
  | spin =>
    cases calling
    refine ⟨le_rfl, fun outside => ?_⟩
    cases outside.symm.trans inserted
  | scan =>
    cases calling
    exact ⟨le_rfl, inserted, fun _ => .inl rfl⟩
  | release =>
    cases calling
    exact ⟨le_rfl, inserted, fun _ => rfl⟩
  | dequeue_spin | dequeue_erase => cases due.1
  | dequeue_release | finish => cases due
  | _ => cases calling

theorem marked_of_dequeues {stage : Stage K V} {free : Free K} (dequeues : stage.dequeues = true)
    (calling : stage.free? = some free) : stage.marked = some free.offset.page := by
  cases stage with
  | dequeue_spin | dequeue_erase =>
    cases calling
    rfl
  | _ => cases dequeues

theorem debt_some {debt : Debt K} (here : state.debt id = some debt) :
    ∃ free, (state.clients id).stage.free? = some free ∧ debt = ⟨free.offset, free.key,
      free.deadlock_offset_inserted, state.marks id, (state.clients id).stage.dequeues⟩ := by
  obtain ⟨free, calling, rfl⟩ := Option.map_eq_some_iff.mp here
  exact ⟨free, calling, rfl⟩

/-- A put that has its page keeps others from marking the page's slots free. -/
theorem Custody.unmarked {agent : Agent} {page : Page} (other : Nat)
    (custody : Custody clean layout state) (keeps : state.locks.Keeps agent page)
    (away : agent ≠ .other other) : (state.clients other).stage.marked ≠ some page := by
  intro marked
  have theirs := (custody.stages other).marked page marked
  exact away (custody.locks.alone _ _ page keeps.holds theirs.holds)

/-- The entries that the owner of a page drains are of calls that owe their slots. -/
theorem Discharge.drained {free : Free K} {entry : Entry} {todo new_offsets : List Entry}
    {bits : Option (Nat → Bool)} (discharge : Discharge layout state)
    (custody : Custody clean layout state)
    (stage : (state.clients id).stage = .change (.queued free entry todo new_offsets) bits) :
    ∃ caller, (state.clients entry.client).stage.free? = some caller ∧
      caller.offset = entry.offset ∧ caller.deadlock_offset_inserted = true ∧
      state.marks entry.client = 0 ∧ (state.clients entry.client).stage.dequeues = false ∧
      ∀ bits, (state.clients entry.client).stage ≠ .change (.target caller) bits := by
  have held := custody.stages id
  rw [stage] at held
  have placed := held.placed _ bits rfl
  have keeps : state.locks.Keeps (.own id) entry.offset.page := by
    rw [placed.1]
    exact held.in_put placed.2
  have unmarked := custody.unmarked entry.client keeps (by simp)
  obtain ⟨debt, here, same, inserted, progress⟩ :=
    discharge.queue.entered _ entry (.inl ⟨id, by rw [stage]; rfl⟩) List.mem_cons_self
  obtain ⟨caller, calling, rfl⟩ := debt_some here
  have stays : (state.clients entry.client).stage.dequeues = false := by
    by_contra leaving
    rw [Bool.not_eq_false] at leaving
    exact unmarked ((marked_of_dequeues leaving calling).trans (congrArg (some ·.page) same))
  refine ⟨caller, calling, same, inserted, ?_, stays, fun bits here => ?_⟩
  · rcases progress with owes | leaving
    · exact owes
    · cases stays.symm.trans leaving
  · apply unmarked
    rw [here]
    exact congrArg (some ·.page) same

/-- The owner of a page marks a slot free for another call. -/
theorem Discharge.drains {free : Free K} {entry : Entry} {todo new_offsets : List Entry}
    {bits : Option (Nat → Bool)} (discharge : Discharge layout state)
    (custody : Custody clean layout state)
    (stage : (state.clients id).stage = .change (.queued free entry todo new_offsets) bits)
    (clients : next.clients = Function.update state.clients id
      { state.clients id with stage := .scan free todo new_offsets })
    (free_slots : next.free_slots = Function.update state.free_slots entry.offset.page
      (Function.update (state.free_slots entry.offset.page) entry.offset.data_offset true))
    (marks : next.marks = Function.update state.marks entry.client (state.marks entry.client + 1))
    (locks : next.locks = state.locks) (data : next.data = state.data)
    (ready : next.ready = state.ready) (offsets : next.deadlock_offsets = state.deadlock_offsets)
    (lock : next.deadlock_offset_lock = state.deadlock_offset_lock) : Discharge layout next := by
  obtain ⟨caller, calling, same, inserted, unmarked, stays, untargeted⟩ :=
    discharge.drained custody stage
  have owing : state.Owes entry.client entry.offset caller.key true := by
    refine ⟨(state.clients entry.client).stage.dequeues, ?_⟩
    rw [debt_free calling, unmarked, same, inserted]
  have at_id : next.clients id = { state.clients id with stage := .scan free todo new_offsets } := by
    rw [clients, Function.update_self]
  have at_other : ∀ other, other ≠ id → next.clients other = state.clients other :=
    fun other away => by rw [clients, Function.update_of_ne away]
  have counted : next.marks entry.client = 1 := by
    rw [marks, Function.update_self, unmarked]
  have others : ∀ other, other ≠ entry.client → next.marks other = state.marks other :=
    fun other away => by rw [marks, Function.update_of_ne away]
  have frees : ∀ other, (next.clients other).stage.free? = (state.clients other).stage.free? ∧
      (next.clients other).stage.dequeues = (state.clients other).stage.dequeues := by
    intro other
    by_cases here : other = id
    · rw [here, at_id, stage]
      exact ⟨rfl, rfl⟩
    · rw [at_other other here]
      exact ⟨rfl, rfl⟩
  have debts : ∀ other, other ≠ entry.client → next.debt other = state.debt other := by
    intro other away
    simp only [State.debt, frees other, others other away]
  have debt : next.debt entry.client = some ⟨caller.offset, caller.key, true, 1, false⟩ := by
    rw [debt_free ((frees _).1.trans calling), counted, (frees _).2, stays, inserted]
  have scanning : (state.clients id).stage.rest = some (entry :: (todo ++ new_offsets)) := by
    rw [stage]
    rfl
  have contents : state.Contents (entry :: (todo ++ new_offsets)) := .inl ⟨id, scanning⟩
  have nodup := discharge.queue.nodup _ contents
  have apart : ∀ other, other ∈ todo ++ new_offsets → other.client ≠ entry.client := by
    intro other member equal
    refine (List.nodup_cons.mp nodup).1 ?_
    rw [← equal]
    exact List.mem_map_of_mem member
  refine ⟨?_, ?_, fun other => ?_, fun other free' here => ?_⟩
  · refine discharge.owed.change entry.client debts (fun other offset key inserted away owes => ?_)
      (fun _ _ _ _ _ free => marked_free free_slots (.inr free))
      (fun offset key inserted owes => ?_) (fun owed here leaving => ?_)
    · refine marked_kept ?_ free_slots data ready
      rintro rfl
      exact away (discharge.owed.apart _ _ _ _ _ _ _ owes owing)
    · obtain ⟨_, owes⟩ := owes
      cases debt.symm.trans owes
    · cases debt.symm.trans here
      cases leaving
  · refine .of_contents id (todo ++ new_offsets) (fun other away => ?_) (fun _ => ?_)
      (.inl (by rw [at_id]; rfl)) (List.nodup_cons.mp nodup).2 (fun other member => ?_)
      (fun other offset key owes => ?_) (fun other member away => ?_)
    · rw [at_other other away]
      by_contra spinning
      rw [Bool.not_eq_false] at spinning
      exact away (discharge.queue.alone other id spinning (spins_of_rest scanning))
    · rw [lock]
      exact discharge.queue.lock id (spins_of_rest scanning)
    · unfold State.Entered
      rw [debts _ (apart other member)]
      exact discharge.queue.entered _ other contents (List.mem_cons_of_mem _ member)
    · by_cases here : other = entry.client
      · subst here
        obtain ⟨_, owes⟩ := owes
        cases debt.symm.trans owes
      · rw [Owes.congr (debts other here)] at owes
        rcases List.mem_cons.mp (discharge.queue.queued _ other offset key contents owes) with
          head | member
        · exact absurd (congrArg Entry.client head) here
        · exact member
    · rw [offsets] at member
      rw [at_id] at away
      rcases List.mem_cons.mp (discharge.queue.scanned id _ other scanning member away) with
        rfl | rest
      · have held := custody.stages id
        rw [stage] at held
        exact absurd (held.placed _ bits rfl).1 away
      · exact rest
  · have due : (next.clients other).stage.Due other (state.marks other)
        (state.locks.calls (.other other)) := by
      by_cases here : other = id
      · have before := discharge.due id
        rw [stage] at before
        rw [here, at_id]
        exact before
      · rw [at_other other here]
        exact discharge.due other
    rw [locks]
    by_cases here : other = entry.client
    · subst here
      rw [unmarked] at due
      rw [counted]
      refine Due.drained due ((frees _).1.trans calling) inserted (fun bits targeted => ?_)
      by_cases mine : entry.client = id
      · rw [mine, at_id] at targeted
        cases targeted
      · rw [at_other _ mine] at targeted
        exact untargeted bits targeted
    · rw [others other here]
      exact due
  · rw [(frees other).1] at here
    exact discharge.puts other free' here

/-! ### The queue -/

theorem Queue.others_calm (queue : Queue layout state)
    (spinning : (state.clients id).stage.spins = true) {other : Nat} (away : other ≠ id) :
    (state.clients other).stage.spins = false := by
  by_contra also
  exact away (queue.alone other id ((Bool.not_eq_false _).mp also) spinning)

theorem Queue.calm (queue : Queue layout state) (unlocked : state.deadlock_offset_lock = false)
    (other : Nat) : (state.clients other).stage.spins = false := by
  by_contra spinning
  cases unlocked.symm.trans (queue.lock other ((Bool.not_eq_false _).mp spinning))

theorem contents_of_calm (calm : ∀ other, (state.clients other).stage.spins = false) :
    state.Contents state.deadlock_offsets := by
  refine .inr ⟨fun other => ?_, rfl⟩
  cases rest : (state.clients other).stage.rest with
  | none => rfl
  | some contents => cases (calm other).symm.trans (spins_of_rest rest)

/-- A step of a call in or about the queue. -/
theorem Discharge.passes {stage : Stage K V} (discharge : Discharge layout state)
    (clients : next.clients = Function.update state.clients id
      { state.clients id with stage := stage })
    (marks : next.marks = state.marks) (still : Still state next)
    (calls : ∀ other, other ≠ id → next.locks.calls (.other other) = state.locks.calls (.other other))
    (owes : ∀ offset key inserted, next.Owes id offset key inserted →
      ∃ before, state.Owes id offset key before)
    (leaves : stage.dequeues = true → (state.clients id).stage.dequeues = true ∧
      stage.free? = (state.clients id).stage.free?)
    (queue : Queue layout next) (due : stage.Due id (state.marks id) (next.locks.calls (.other id)))
    (puts : ∀ free, stage.free? = some free → free.put.isSome = true) : Discharge layout next := by
  have at_id : next.clients id = { state.clients id with stage := stage } := by
    rw [clients, Function.update_self]
  have at_other : ∀ other, other ≠ id → next.clients other = state.clients other :=
    fun other away => by rw [clients, Function.update_of_ne away]
  refine ⟨?_, queue, fun other => ?_, fun other free calling => ?_⟩
  · refine discharge.owed.change id (fun other away => debt_other (at_other other away) (by rw [marks]))
      (fun _ offset _ _ _ _ => still.kept offset) (fun _ debt _ _ _ => still.freed debt)
      (fun offset key inserted owing => ?_) (fun debt here leaving => ?_)
    · obtain ⟨before, owed⟩ := owes offset key inserted owing
      obtain ⟨ready, taken, same⟩ := still.kept offset (discharge.owed.ready _ _ _ _ owed)
        (discharge.owed.taken _ _ _ _ owed)
      refine ⟨ready, taken, same.trans (discharge.owed.key _ _ _ _ owed), ?_⟩
      intro other key' inserted' away theirs
      exact away (discharge.owed.apart _ _ _ _ _ _ _ theirs owed)
    · obtain ⟨free, calling, rfl⟩ := debt_some here
      rw [at_id] at calling leaving
      obtain ⟨before, same⟩ := leaves leaving
      have freed := discharge.owed.freed id _ (debt_free (same.symm.trans calling)) before
      rw [still.free_slots]
      exact freed
  · by_cases here : other = id
    · rw [here, at_id, marks]
      exact due
    · rw [at_other other here, calls other here, marks]
      exact discharge.due other
  · by_cases here : other = id
    · rw [here, at_id] at calling
      exact puts free calling
    · rw [at_other other here] at calling
      exact discharge.puts other free calling

/-- A call takes the lock of the queue and puts its offset there. -/
theorem Discharge.enters {free : Free K} {deadlock_offsets : List Entry}
    (discharge : Discharge layout state) (stage : (state.clients id).stage = .spin free)
    (unlocked : state.deadlock_offset_lock = false)
    (inserts : deadlock_offsets = if free.deadlock_offset_inserted then state.deadlock_offsets
      else state.deadlock_offsets ++ [⟨free.offset, id⟩])
    (clients : next.clients = Function.update state.clients id { state.clients id with
      stage := .scan { free with deadlock_offset_inserted := true, encountered_own_offset := false }
        deadlock_offsets [] })
    (marks : next.marks = state.marks) (still : Still state next) (locks : next.locks = state.locks)
    (offsets : next.deadlock_offsets = deadlock_offsets)
    (lock : next.deadlock_offset_lock = true) : Discharge layout next := by
  have due := discharge.due id
  rw [stage] at due
  obtain ⟨few, outside⟩ := due
  have calling : (state.clients id).stage.free? = some free := by
    rw [stage]
    rfl
  have debt := debt_free calling
  have stays : (state.clients id).stage.dequeues = false := by
    rw [stage]
    rfl
  have at_id : next.clients id = { state.clients id with
      stage := .scan { free with deadlock_offset_inserted := true, encountered_own_offset := false }
        deadlock_offsets [] } := by
    rw [clients, Function.update_self]
  have at_other : ∀ other, other ≠ id → next.clients other = state.clients other :=
    fun other away => by rw [clients, Function.update_of_ne away]
  have debts : ∀ other, other ≠ id → next.debt other = state.debt other :=
    fun other away => debt_other (at_other other away) (by rw [marks])
  have debt' : next.debt id = some ⟨free.offset, free.key, true, state.marks id, false⟩ := by
    simp only [State.debt, at_id, marks]
    rfl
  have calm := discharge.queue.calm unlocked
  have contents := contents_of_calm calm
  have mine : state.marks id = 0 → ⟨free.offset, id⟩ ∈ deadlock_offsets := by
    intro unmarked
    rw [inserts]
    split
    · rename_i inserted
      refine discharge.queue.queued _ id free.offset free.key contents ⟨false, ?_⟩
      rw [debt, unmarked, stays, inserted]
    · exact List.mem_append_right _ (List.mem_singleton.mpr rfl)
  have members : ∀ entry, entry ∈ deadlock_offsets → entry ∈ state.deadlock_offsets ∨
      free.deadlock_offset_inserted = false ∧ entry = ⟨free.offset, id⟩ := by
    intro entry member
    rw [inserts] at member
    split at member
    · exact .inl member
    · rename_i fresh
      rcases List.mem_append.mp member with old | new
      · exact .inl old
      · exact .inr ⟨(Bool.not_eq_true _).mp fresh, List.mem_singleton.mp new⟩
  have queue : Queue layout next := by
    refine .of_contents id deadlock_offsets (fun other away => ?_) (fun _ => lock)
      (.inl (by rw [at_id]; exact congrArg some (List.append_nil _))) ?_ (fun entry member => ?_)
      (fun other offset key owes => ?_) (fun entry member _ => by rwa [offsets] at member)
    · rw [at_other other away]
      exact calm other
    · rw [inserts]
      split
      · exact discharge.queue.nodup _ contents
      · rename_i fresh
        rw [List.map_append, List.nodup_append]
        refine ⟨discharge.queue.nodup _ contents, List.pairwise_singleton _ _,
          fun other old new added same => ?_⟩
        obtain ⟨entry, member, rfl⟩ := List.mem_map.mp old
        cases List.mem_singleton.mp added
        obtain ⟨owed, here, -, inserted, -⟩ := discharge.queue.entered _ entry contents member
        rw [same] at here
        cases debt.symm.trans here
        exact fresh inserted
    · rcases members entry member with old | ⟨fresh, rfl⟩
      · obtain ⟨owed, here, same, inserted, progress⟩ :=
          discharge.queue.entered _ entry contents old
        by_cases acting : entry.client = id
        · rw [acting, debt] at here
          cases here
          refine ⟨⟨free.offset, free.key, true, state.marks id, false⟩, ?_, same, rfl,
            .inl (progress.resolve_right (by rw [stays]; intro here; cases here))⟩
          rw [acting, debt']
        · refine ⟨owed, ?_, same, inserted, progress⟩
          rw [debts _ acting]
          exact here
      · exact ⟨_, debt', rfl, rfl, .inl (outside fresh)⟩
    · by_cases acting : other = id
      · subst acting
        obtain ⟨_, owes⟩ := owes
        rw [debt'] at owes
        have unmarked := congrArg Debt.marks (Option.some.inj owes)
        have same := congrArg Debt.offset (Option.some.inj owes)
        cases same
        exact mine unmarked
      · rw [Owes.congr (debts other acting)] at owes
        have old := discharge.queue.queued _ other offset key contents owes
        rw [inserts]
        split
        · exact old
        · exact List.mem_append_left _ old
  refine discharge.passes clients marks still (fun _ _ => by rw [locks])
    (fun offset key inserted owes => ?_) (fun leaving => nomatch leaving) queue
    ⟨few, rfl, fun _ => ?_⟩ (fun other same => ?_)
  · obtain ⟨_, owes⟩ := owes
    rw [debt'] at owes
    have unmarked := congrArg Debt.marks (Option.some.inj owes)
    cases congrArg Debt.offset (Option.some.inj owes)
    cases congrArg Debt.key (Option.some.inj owes)
    refine ⟨free.deadlock_offset_inserted, false, ?_⟩
    rw [debt, stays, show state.marks id = 0 from unmarked]
  · by_cases unmarked : state.marks id = 0
    · exact .inr (mine unmarked)
    · exact .inl (by omega)
  · cases same
    exact discharge.puts id free calling

/-- A call goes on with the entries of the queue, in any order. -/
theorem Discharge.turns {stage : Stage K V} {contents : List Entry} (contents' : List Entry)
    (discharge : Discharge layout state) (current : state.Contents contents)
    (same : contents'.Perm contents)
    (others : ∀ other, other ≠ id → (state.clients other).stage.spins = false)
    (clients : next.clients = Function.update state.clients id
      { state.clients id with stage := stage })
    (debt : next.debt id = state.debt id) (marks : next.marks = state.marks)
    (still : Still state next)
    (calls : ∀ other, other ≠ id → next.locks.calls (.other other) = state.locks.calls (.other other))
    (lock : stage.spins = true → next.deadlock_offset_lock = true)
    (here : stage.rest = some contents' ∨ stage.rest = none ∧ contents' = next.deadlock_offsets)
    (scanned : ∀ entry, entry ∈ next.deadlock_offsets →
      entry.offset.page ≠ (state.clients id).v_page layout → entry ∈ contents')
    (leaves : stage.dequeues = true → (state.clients id).stage.dequeues = true ∧
      stage.free? = (state.clients id).stage.free?)
    (due : stage.Due id (state.marks id) (next.locks.calls (.other id)))
    (puts : ∀ free, stage.free? = some free → free.put.isSome = true) : Discharge layout next := by
  have at_id : next.clients id = { state.clients id with stage := stage } := by
    rw [clients, Function.update_self]
  have at_other : ∀ other, other ≠ id → next.clients other = state.clients other :=
    fun other away => by rw [clients, Function.update_of_ne away]
  have debts : ∀ other, next.debt other = state.debt other := by
    intro other
    by_cases acting : other = id
    · rw [acting, debt]
    · exact debt_other (at_other other acting) (by rw [marks])
  refine discharge.passes clients marks still calls
    (fun offset key inserted owes => ⟨inserted, (Owes.congr (debts id)).mp owes⟩) leaves ?_ due puts
  refine .of_contents id contents' (fun other away => ?_) (fun spinning => ?_) ?_ ?_
    (fun entry member => ?_) (fun other offset key owes => ?_) (fun entry member away => ?_)
  · rw [at_other other away]
    exact others other away
  · rw [at_id] at spinning
    exact lock spinning
  · rw [at_id]
    exact here
  · exact (same.map Entry.client).nodup_iff.mpr (discharge.queue.nodup _ current)
  · unfold State.Entered
    rw [debts]
    exact discharge.queue.entered _ entry current (same.mem_iff.mp member)
  · rw [Owes.congr (debts other)] at owes
    exact same.mem_iff.mpr (discharge.queue.queued _ other offset key current owes)
  · rw [at_id] at away
    exact scanned entry member away

theorem Queue.current (queue : Queue layout state)
    (spinning : (state.clients id).stage.spins = true) (rest : (state.clients id).stage.rest = none) :
    state.Contents state.deadlock_offsets := by
  refine .inr ⟨fun other => ?_, rfl⟩
  by_cases acting : other = id
  · rw [acting, rest]
  · cases theirs : (state.clients other).stage.rest with
    | none => rfl
    | some contents => cases (queue.others_calm spinning acting).symm.trans (spins_of_rest theirs)

/-- What is left of the queue when the only entries for a slot are one client's. -/
theorem mem_eraseP {entries : List Entry} {entry : Entry} {test : Entry → Bool} {client : Nat}
    (nodup : (entries.map Entry.client).Nodup)
    (only : ∀ entry, entry ∈ entries → (test entry = true ↔ entry.client = client)) :
    entry ∈ entries.eraseP test ↔ entry ∈ entries ∧ entry.client ≠ client := by
  induction entries with
  | nil => simp
  | cons head tail ih =>
    obtain ⟨fresh, rest⟩ := List.nodup_cons.mp nodup
    have at_head := only head List.mem_cons_self
    have later := ih rest (fun other member => only other (List.mem_cons_of_mem _ member))
    by_cases found : test head = true
    · rw [List.eraseP_cons_of_pos found]
      constructor
      · intro member
        refine ⟨List.mem_cons_of_mem _ member, fun same => fresh ?_⟩
        rw [at_head.mp found, ← same]
        exact List.mem_map_of_mem member
      · rintro ⟨member, away⟩
        rcases List.mem_cons.mp member with rfl | member
        · exact absurd (at_head.mp found) away
        · exact member
    · rw [List.eraseP_cons_of_neg found, List.mem_cons, later, List.mem_cons]
      constructor
      · rintro (rfl | ⟨member, away⟩)
        · exact ⟨.inl rfl, fun same => found (at_head.mpr same)⟩
        · exact ⟨.inr member, away⟩
      · rintro ⟨rfl | member, away⟩
        · exact .inl rfl
        · exact .inr ⟨member, away⟩

/-- A call that has freed its slot takes its entry back. -/
theorem Discharge.erases {free : Free K} (discharge : Discharge layout state)
    (custody : Custody clean layout state) (stage : (state.clients id).stage = .dequeue_erase free)
    (clients : next.clients = Function.update state.clients id
      { state.clients id with stage := .dequeue_release free })
    (marks : next.marks = state.marks) (still : Still state next) (locks : next.locks = state.locks)
    (offsets : next.deadlock_offsets =
      state.deadlock_offsets.eraseP (·.offset == free.offset))
    (lock : next.deadlock_offset_lock = state.deadlock_offset_lock) : Discharge layout next := by
  have due := discharge.due id
  rw [stage] at due
  obtain ⟨once, inserted⟩ := due
  have calling : (state.clients id).stage.free? = some free := by
    rw [stage]
    rfl
  have leaving : (state.clients id).stage.dequeues = true := by
    rw [stage]
    rfl
  have spinning : (state.clients id).stage.spins = true := by
    rw [stage]
    rfl
  have at_id : next.clients id = { state.clients id with stage := .dequeue_release free } := by
    rw [clients, Function.update_self]
  have at_other : ∀ other, other ≠ id → next.clients other = state.clients other :=
    fun other away => by rw [clients, Function.update_of_ne away]
  have debts : ∀ other, other ≠ id → next.debt other = state.debt other :=
    fun other away => debt_other (at_other other away) (by rw [marks])
  have debt := debt_free calling
  have contents := discharge.queue.current spinning (by rw [stage]; rfl)
  -- no other call has an entry for a slot that is free and whose page this one holds
  have only : ∀ entry, entry ∈ state.deadlock_offsets →
      ((entry.offset == free.offset) = true ↔ entry.client = id) := by
    intro entry member
    obtain ⟨owed, here, same, -, progress⟩ := discharge.queue.entered _ entry contents member
    rw [beq_iff_eq]
    constructor
    · intro equal
      rcases progress with unmarked | leaving'
      · have freed := discharge.owed.freed id _ debt leaving
        obtain ⟨offset, key, inserted, marks, dequeues⟩ := owed
        cases unmarked
        have taken := discharge.owed.taken _ _ _ _ ⟨dequeues, here⟩
        cases same.trans equal
        cases taken.symm.trans freed
      · obtain ⟨free', calling', rfl⟩ := debt_some here
        have mine := (custody.stages id).marked _ (marked_of_dequeues leaving calling)
        have theirs := (custody.stages entry.client).marked _ (marked_of_dequeues leaving' calling')
        rw [show free'.offset = free.offset from same.trans equal] at theirs
        exact Agent.other.inj (custody.locks.alone _ _ _ theirs.holds mine.holds)
    · intro acting
      rw [acting, debt] at here
      cases here
      exact same.symm
  have left : ∀ entry, entry ∈ next.deadlock_offsets ↔
      entry ∈ state.deadlock_offsets ∧ entry.client ≠ id := by
    intro entry
    rw [offsets]
    exact mem_eraseP (discharge.queue.nodup _ contents) only
  refine discharge.passes clients marks still (fun _ _ => by rw [locks])
    (fun offset key inserted owes => ?_) (fun leaving => nomatch leaving) ?_ once (fun other same => ?_)
  · obtain ⟨_, owes⟩ := owes
    rw [debt_free (by rw [at_id]; rfl), marks] at owes
    cases once.symm.trans (congrArg Debt.marks (Option.some.inj owes))
  · refine .of_contents id next.deadlock_offsets (fun other away => ?_) (fun _ => ?_)
      (.inr ⟨by rw [at_id]; rfl, rfl⟩) ?_ (fun entry member => ?_) (fun other offset key owes => ?_)
      (fun entry member _ => member)
    · rw [at_other other away]
      exact discharge.queue.others_calm spinning away
    · rw [lock]
      exact discharge.queue.lock id spinning
    · rw [offsets]
      exact (discharge.queue.nodup _ contents).sublist (List.eraseP_sublist.map _)
    · obtain ⟨old, away⟩ := (left entry).mp member
      unfold State.Entered
      rw [debts _ away]
      exact discharge.queue.entered _ entry contents old
    · by_cases acting : other = id
      · subst acting
        obtain ⟨_, owes⟩ := owes
        rw [debt_free (by rw [at_id]; rfl), marks] at owes
        cases once.symm.trans (congrArg Debt.marks (Option.some.inj owes))
      · rw [Owes.congr (debts other acting)] at owes
        exact (left _).mpr ⟨discharge.queue.queued _ other offset key contents owes, acting⟩
  · cases same
    exact discharge.puts id free calling

/-- A call of `free_occupied_slot` returns. -/
theorem Discharge.returns {free : Free K} {stage : Stage K V} (discharge : Discharge layout state)
    (before : (state.clients id).stage = .finish free) (after : stage.free? = none) :
    Discharge layout (state.at id stage) := by
  have once := discharge.due id
  rw [before] at once
  have debt := debt_free (show (state.clients id).stage.free? = some free by rw [before]; rfl)
  rw [before] at debt
  obtain ⟨rest, spins, -⟩ := calm after
  have undebted : (state.at id stage).debt id = none := by
    simp only [State.debt, at_self, after, Option.map_none]
  refine discharge.settle rfl (by rw [before, rest]; rfl) (by rw [before, spins]; rfl)
    (fun _ _ => rfl) (fun _ _ => rfl) rfl rfl ?_ (fun entry mine entered => ?_)
    (fun offset key owes => ?_) (Due.outside after) (fun other same => ?_)
  · refine discharge.owed.change id (fun other away => debt_other (Function.update_of_ne away ..) rfl)
      (fun _ _ _ _ _ _ ready taken => ⟨ready, taken, rfl⟩) (fun _ _ _ _ _ free => free)
      (fun offset key inserted owes => ?_) (fun owed here _ => ?_)
    · obtain ⟨_, owes⟩ := owes
      cases undebted.symm.trans owes
    · cases undebted.symm.trans here
  · obtain ⟨owed, here, -, -, progress⟩ := entered
    rw [mine, debt] at here
    cases here
    rcases progress with unmarked | leaving
    · cases once.symm.trans unmarked
    · cases leaving
  · obtain ⟨_, owes⟩ := owes
    cases undebted.symm.trans owes
  · cases after.symm.trans same

/-- The entry that a call still finds in the queue under the lock of its page is
its own, so that nobody has marked its slot free. -/
theorem Discharge.unmarked {free : Free K} (discharge : Discharge layout state)
    (custody : Custody clean layout state) (stage : (state.clients id).stage = .acquire free)
    (keeps : state.locks.Keeps (.other id) free.offset.page)
    (queued : ⟨free.offset, id⟩ ∈ state.deadlock_offsets) : state.marks id = 0 := by
  have entered : ∀ contents, state.Contents contents → ⟨free.offset, id⟩ ∈ contents →
      state.marks id = 0 := by
    intro contents current member
    obtain ⟨owed, here, -, -, progress⟩ := discharge.queue.entered contents _ current member
    rw [debt_free (by rw [stage]; rfl)] at here
    cases here
    refine progress.resolve_right ?_
    rw [stage]
    intro here
    cases here
  by_cases scanning : ∃ other contents, (state.clients other).stage.rest = some contents
  · obtain ⟨other, contents, rest⟩ := scanning
    refine entered contents (.inl ⟨other, rest⟩) (discharge.queue.scanned other contents _ rest queued ?_)
    intro same
    -- the scanner has the lock of its page for its put
    have in_put : (state.clients other).stage.in_put = true := by
      cases theirs : (state.clients other).stage with
      | scan free' => exact discharge.puts other free' (by rw [theirs]; rfl)
      | change site bits =>
        rw [theirs] at rest
        cases site with
        | queued free' => exact discharge.puts other free' (by rw [theirs]; rfl)
        | _ => cases rest
      | _ =>
        rw [theirs] at rest
        cases rest
    have held := (custody.stages other).in_put in_put
    rw [← same] at held
    cases custody.locks.alone _ _ _ held.holds keeps.holds
  · refine entered state.deadlock_offsets (.inr ⟨fun other => ?_, rfl⟩) queued
    cases rest : (state.clients other).stage.rest with
    | none => rfl
    | some contents => exact absurd ⟨other, contents, rest⟩ scanning

/-- A put stores into a slot that was free, or claims it. -/
theorem claimed_kept {page : Page} {slot : Nat}
    (free : state.free_slots page slot = true)
    (ready : next.ready = state.ready)
    (free_slots : ∀ offset, offset ≠ (⟨page, slot⟩ : KVOffset) →
      next.free_slots offset.page offset.data_offset =
        state.free_slots offset.page offset.data_offset)
    (data : ∀ offset, offset ≠ ⟨page, slot⟩ → next.data offset = state.data offset)
    (offset : KVOffset) : Kept state next offset := by
  intro set taken
  have apart : offset ≠ ⟨page, slot⟩ := by
    rintro rfl
    cases free.symm.trans taken
  rw [ready, free_slots offset apart, data offset apart]
  exact ⟨set, taken, rfl⟩

/-- A put claims the slot that it has written. -/
theorem Discharge.claims {put : Put K V} {slot : Nat} {bits : Nat → Bool}
    (discharge : Discharge layout state) (custody : Custody clean layout state)
    (stage : (state.clients id).stage = .change (.claim put slot) (some bits)) :
    Discharge layout ((state.set_bits ((state.clients id).v_page layout)
      (Function.update (state.free_slots ((state.clients id).v_page layout)) slot false)).at id
        (.resolve put slot)) := by
  have held := custody.stages id
  rw [stage] at held
  have free := held.claims slot rfl
  refine discharge.outside id (fun other away => Function.update_of_ne away ..) (by rw [stage]; rfl)
    (by rw [at_self]; rfl) rfl (fun _ _ => rfl) rfl rfl
    (claimed_kept free rfl (fun offset apart => ?_) (fun _ _ => rfl))
    (fun other debt here leaving free => ?_)
  · change Function.update state.free_slots _ _ _ _ = _
    by_cases page : offset.page = (state.clients id).v_page layout
    · rw [page, Function.update_self, Function.update_of_ne]
      intro same
      apply apart
      cases offset
      cases page
      cases same
      rfl
    · rw [Function.update_of_ne page]
  · obtain ⟨free', calling, rfl⟩ := debt_some here
    have away : free'.offset.page ≠ (state.clients id).v_page layout := by
      intro same
      have marked := marked_of_dequeues leaving calling
      rw [same] at marked
      exact custody.unmarked other (held.in_put rfl) (by simp) marked
    change Function.update state.free_slots _ _ _ _ = true
    rw [Function.update_of_ne away]
    exact free

variable [DecidableEq K]

theorem Discharge.store_step {site : Site K V} {bits : Nat → Bool}
    (discharge : Discharge layout state)
    (custody : Custody clean layout state)
    (stage : (state.clients id).stage = .change site (some bits))
    (stepped : state.client_step layout id = some next) : Discharge layout next := by
  have held := custody.stages id
  have due := discharge.due id
  simp only [State.client_step, stage] at stepped
  rw [stage] at held due
  cases stepped
  have current := held.bits site bits rfl
  have marked : store_bit (state.free_slots (site.offset ((state.clients id).v_page layout)).page)
      bits (site.offset ((state.clients id).v_page layout)).data_offset site.bit =
        Function.update (state.free_slots (site.offset ((state.clients id).v_page layout)).page)
          (site.offset ((state.clients id).v_page layout)).data_offset site.bit := by
    rw [current, store_bit_self]
  rw [marked]
  cases site with
  | claim put slot => exact discharge.claims custody stage
  | own free =>
    refine discharge.marked (by rw [stage]; rfl) due.1 rfl rfl rfl rfl rfl rfl rfl rfl
      (by rw [stage]; rfl) (by rw [stage]; rfl) rfl (fun inserted => ?_) rfl
    cases due.2.symm.trans inserted
  | queued free entry todo new_offsets =>
    exact discharge.drains custody stage rfl rfl rfl rfl rfl rfl rfl rfl
  | target free =>
    simp only [State.changed]
    split
    · rename_i both
      exact discharge.marked (by rw [stage]; rfl) due.1 rfl rfl rfl rfl rfl rfl rfl rfl
        (by rw [stage]; rfl) (by rw [stage]; rfl) rfl (fun _ => rfl) ⟨rfl, both.1⟩
    · rename_i outside
      refine discharge.marked (by rw [stage]; rfl) due.1 rfl rfl rfl rfl rfl rfl rfl rfl
        (by rw [stage]; rfl) (by rw [stage]; rfl) rfl (fun inserted => ?_) rfl
      exact absurd ⟨inserted, due.2 inserted⟩ outside

theorem Discharge.acquire_step {free : Free K} (discharge : Discharge layout state)
    (custody : Custody clean layout state)
    (timely : state.Timely layout (.client id))
    (stage : (state.clients id).stage = .acquire free)
    (stepped : state.client_step layout id = some next) : Discharge layout next := by
  have held := custody.stages id
  have due := discharge.due id
  have puts := discharge.puts id
  simp only [State.client_step, stage] at stepped
  rw [stage] at held due puts
  obtain ⟨few, again, attempt, outside, found, ended⟩ := due
  have within : ∀ stage' : Stage K V, stage'.free? = some free → stage'.rest = none →
      stage'.spins = false → stage'.dequeues = false →
      stage'.Due id (state.marks id) (state.locks.calls (.other id)) →
        Discharge layout (state.at id stage') := by
    intro stage' calling rest spins dequeues after
    refine discharge.within rfl ?_ (by rw [stage, rest]; rfl) (by rw [stage, spins]; rfl) rfl
      (fun _ _ => rfl) rfl rfl ⟨rfl, rfl, fun _ set => set⟩ after (fun other same => ?_)
    · simp only [State.debt, at_self, stage, calling, dequeues]
      rfl
    · cases calling.symm.trans same
      exact puts free rfl
  split at stepped
  · rename_i path page li_slot holding
    cases stepped
    have keeps : state.locks.Keeps (.other id) free.offset.page := by
      rw [← held.target free.offset.page page rfl (by rw [holding]; rfl)]
      exact ⟨path, li_slot, holding⟩
    have goes_on : again = true := by
      rw [holding] at attempt
      cases path <;> cases attempt
      rfl
    refine within _ rfl rfl rfl rfl ⟨?_, fun inserted => (found inserted).symm.trans goes_on⟩
    cases inserted : free.deadlock_offset_inserted with
    | false => exact (outside inserted).1
    | true => exact discharge.unmarked custody stage keeps (timely.2.2 free stage keeps inserted)
  · cases stepped
    exact within _ rfl rfl rfl rfl ⟨few, fun inserted => (outside inserted).1⟩
  · rename_i idle
    cases stepped
    rw [idle] at attempt
    cases attempt
    exact within _ rfl rfl rfl rfl (ended rfl)
  · cases stepped

theorem Discharge.scan_step {free : Free K} {entry : Entry} {todo new_offsets : List Entry}
    (discharge : Discharge layout state)
    (stage : (state.clients id).stage = .scan free (entry :: todo) new_offsets)
    (stepped : state.client_step layout id = some next) : Discharge layout next := by
  have due := discharge.due id
  have puts := discharge.puts id
  simp only [State.client_step, stage] at stepped
  rw [stage] at due puts
  obtain ⟨few, inserted, queued⟩ := due
  have scanning : (state.clients id).stage.rest = some (entry :: (todo ++ new_offsets)) := by
    rw [stage]
    rfl
  have later : (free.encountered_own_offset || free.offset == entry.offset) = false →
      state.marks id = 1 ∨ ⟨free.offset, id⟩ ∈ todo := by
    intro missed
    obtain ⟨before, away⟩ := Bool.or_eq_false_iff.mp missed
    refine (queued before).imp_right (fun member => ?_)
    rcases List.mem_cons.mp member with here | member
    · rw [← here] at away
      simp at away
    · exact member
  split at stepped <;> cases stepped
  · refine discharge.within rfl ?_ (by rw [stage]; rfl) (by rw [stage]; rfl) rfl (fun _ _ => rfl) rfl
      rfl ⟨rfl, rfl, fun _ set => set⟩ ⟨few, inserted, later⟩ (fun other same => ?_)
    · simp only [State.debt, at_self, stage]
      rfl
    · cases same
      exact puts free rfl
  · refine discharge.turns (todo ++ (new_offsets ++ [entry])) (.inl ⟨id, scanning⟩) ?_
      (fun other away => discharge.queue.others_calm (spins_of_rest scanning) away) rfl ?_ rfl
      ⟨rfl, rfl, fun _ set => set⟩ (fun _ _ => rfl)
      (fun _ => discharge.queue.lock id (spins_of_rest scanning)) (.inl rfl)
      (fun other member away => ?_) (by intro here; cases here) ⟨few, inserted, later⟩
      (fun other same => ?_)
    · rw [← List.append_assoc]
      exact List.perm_append_singleton ..
    · simp only [State.debt, at_self, stage]
      rfl
    · have member := discharge.queue.scanned id _ other scanning member away
      rw [← List.append_assoc]
      exact (List.perm_append_singleton ..).mem_iff.mpr member
    · cases same
      exact puts free rfl

theorem Discharge.scanned_step {free : Free K} {new_offsets : List Entry}
    (discharge : Discharge layout state)
    (stage : (state.clients id).stage = .scan free [] new_offsets)
    (stepped : state.client_step layout id = some next) : Discharge layout next := by
  have due := discharge.due id
  have puts := discharge.puts id
  simp only [State.client_step, stage] at stepped
  rw [stage] at due puts
  cases stepped
  obtain ⟨few, inserted, queued⟩ := due
  have scanning : (state.clients id).stage.rest = some new_offsets := by
    rw [stage]
    rfl
  refine discharge.turns new_offsets (.inl ⟨id, scanning⟩) (.refl _)
    (fun other away => discharge.queue.others_calm (spins_of_rest scanning) away) rfl ?_ rfl
    ⟨rfl, rfl, fun _ set => set⟩ (fun _ _ => rfl)
    (fun _ => discharge.queue.lock id (spins_of_rest scanning)) (.inr ⟨rfl, rfl⟩)
    (fun _ member _ => member) (by intro here; cases here) ⟨few, inserted, fun missed => ?_⟩ puts
  · simp only [State.debt, State.at, State.set_client, Function.update_self, stage]
    rfl
  · exact (queued missed).resolve_right List.not_mem_nil

theorem Discharge.release_step {free : Free K} (discharge : Discharge layout state)
    (stage : (state.clients id).stage = .release free)
    (stepped : state.client_step layout id = some next) : Discharge layout next := by
  have due := discharge.due id
  have puts := discharge.puts id
  simp only [State.client_step, stage] at stepped
  rw [stage] at due puts
  obtain ⟨few, inserted, missed⟩ := due
  have spinning : (state.clients id).stage.spins = true := by
    rw [stage]
    rfl
  obtain ⟨locks, possible, rfl⟩ := with_locks_some stepped
  refine discharge.turns state.deadlock_offsets
    (discharge.queue.current spinning (by rw [stage]; rfl)) (.refl _)
    (fun other away => discharge.queue.others_calm spinning away) rfl ?_ rfl
    ⟨rfl, rfl, fun _ set => set⟩
    (fun other away => Intents.step_calls _ (by simpa [Intents.Action.agent] using away.symm) possible)
    (by intro here; cases here) (.inr ⟨rfl, rfl⟩) (fun _ member _ => member) (by intro here; cases here)
    ⟨few, free.encountered_own_offset, ?_, fun outside => ?_, fun _ => rfl, missed⟩ puts
  · simp only [State.debt, State.at, State.set_client, Function.update_self, stage]
    rfl
  · obtain ⟨_, _, _, -, rfl⟩ := Intents.resolved_step possible
    change (Function.update state.locks.calls _ _ _).attempt = _
    rw [Function.update_self]
    rfl
  · cases outside.symm.trans inserted

theorem Discharge.client_step (discharge : Discharge layout state)
    (custody : Custody clean layout state)
    (timely : state.Timely layout (.client id))
    (stepped : state.client_step layout id = some next) : Discharge layout next := by
  have held := custody.stages id
  have due := discharge.due id
  have puts := discharge.puts id
  have goes : ∀ stage, (state.clients id).stage.free? = none → stage.free? = none →
      Discharge layout (state.at id stage) :=
    fun stage before after => discharge.quiet rfl before after rfl (fun _ _ => rfl) rfl rfl
      ⟨rfl, rfl, fun _ set => set⟩
  have whole := stepped
  simp only [State.client_step] at stepped
  split at stepped <;> rename_i stage <;> rw [stage] at held due puts goes
  · cases stepped
  · cases stepped
  · cases stepped
  · cases stepped
  · -- disown
    obtain ⟨locks, possible, rfl⟩ := with_locks_some stepped
    exact discharge.quiet rfl (by rw [stage]; rfl) rfl rfl
      (fun _ _ => Intents.step_calls _ (by simp [Intents.Action.agent]) possible) rfl rfl
      ⟨rfl, rfl, fun _ set => set⟩
  · -- init stores the lock
    cases stepped
    exact discharge.quiet rfl (by rw [stage]; rfl) rfl rfl (fun _ _ => rfl) rfl rfl
      ⟨rfl, rfl, fun _ set => set⟩
  · -- init sets a word, or is done
    rename_i kind next_word resume
    split at stepped
    · cases stepped
      refine discharge.outside id (fun other away => Function.update_of_ne away ..)
        (by rw [stage]; rfl) (by rw [at_self]; rfl) rfl (fun _ _ => rfl) rfl rfl
        (fun offset ready taken => ⟨ready, ?_, rfl⟩) (fun other debt _ _ free => ?_)
      · have away : offset.page ≠ (state.clients id).v_page layout := by
          intro same
          rw [same, held.unready rfl] at ready
          cases ready
        change Function.update state.free_slots _ _ _ _ = false
        rw [Function.update_of_ne away]
        exact taken
      · change Function.update state.free_slots _ _ _ _ = true
        rw [Function.update_apply]
        split
        · rename_i same
          rw [← same]
          unfold store_word
          rw [free, ite_self]
        · exact free
    · split at stepped
      · cases stepped
        exact goes _ rfl rfl
      · obtain ⟨locks, possible, rfl⟩ := with_locks_some stepped
        refine discharge.quiet rfl (by rw [stage]; rfl) rfl rfl
          (fun _ _ => Intents.step_calls _ (by simp [Intents.Action.agent]) possible) rfl rfl
          ⟨rfl, rfl, fun page set => ?_⟩
        change Function.update state.ready _ _ _ = true
        rw [Function.update_apply, set, ite_self]
      · cases stepped
  · -- own
    obtain ⟨locks, possible, rfl⟩ := with_locks_some stepped
    refine discharge.quiet rfl (by rw [stage]; rfl) rfl rfl
      (fun _ _ => Intents.step_calls _ (by simp [Intents.Action.agent]) possible) rfl rfl
      ⟨rfl, rfl, fun page set => ?_⟩
    change Function.update state.ready _ _ _ = true
    rw [Function.update_apply, set, ite_self]
  · -- own
    obtain ⟨locks, possible, rfl⟩ := with_locks_some stepped
    exact discharge.quiet rfl (by rw [stage]; rfl) rfl rfl
      (fun _ _ => Intents.step_calls _ (by simp [Intents.Action.agent]) possible) rfl rfl
      ⟨rfl, rfl, fun _ set => set⟩
  · -- lock
    split at stepped
    · split at stepped <;> cases stepped <;> exact goes _ rfl rfl
    · cases stepped
  · -- full
    split at stepped
    · exact discharge.unlocks_own stepped
    · split at stepped <;> cases stepped
      · exact goes _ rfl rfl
      · exact discharge.outside id (fun other away => Function.update_of_ne away ..)
          (by rw [stage]; rfl)
          (by simp only [State.set_client, Function.update_self]; rfl) rfl (fun _ _ => rfl) rfl rfl
          (fun _ ready taken => ⟨ready, taken, rfl⟩) (fun _ _ _ _ free => free)
    · cases stepped
  · -- write the key
    rename_i put slot
    cases stepped
    have free := held.claims slot rfl
    exact discharge.outside id (fun other away => Function.update_of_ne away ..)
      (by rw [stage]; rfl) (by simp only [State.at, State.set_client, Function.update_self]; rfl) rfl
      (fun _ _ => rfl) rfl rfl (claimed_kept free rfl (fun _ _ => rfl)
        (fun _ apart => Function.update_of_ne apart ..)) (fun _ _ _ _ free => free)
  · -- write the value
    rename_i put slot
    cases stepped
    have free := held.claims slot rfl
    exact discharge.outside id (fun other away => Function.update_of_ne away ..)
      (by rw [stage]; rfl) (by simp only [State.at, State.set_client, Function.update_self]; rfl) rfl
      (fun _ _ => rfl) rfl rfl (claimed_kept free rfl (fun _ _ => rfl)
        (fun _ apart => Function.update_of_ne apart ..)) (fun _ _ _ _ free => free)
  · -- load the free slots
    rename_i site
    cases stepped
    cases site with
    | claim put slot => exact goes _ rfl rfl
    | own free | queued free | target free =>
      refine discharge.within rfl ?_ (by rw [stage]; rfl) (by rw [stage]; rfl) rfl (fun _ _ => rfl) rfl
        rfl ⟨rfl, rfl, fun _ set => set⟩ due puts
      simp only [State.debt, at_self, stage]
      rfl
  · exact discharge.store_step custody stage whole
  · exact discharge.acquire_step custody timely stage whole
  · -- spin
    split at stepped <;> cases stepped
    rename_i unlocked
    exact discharge.enters stage ((Bool.not_eq_true _).mp unlocked) rfl rfl rfl
      ⟨rfl, rfl, fun _ set => set⟩ rfl rfl rfl
  · exact discharge.scan_step stage whole
  · exact discharge.scanned_step stage whole
  · exact discharge.release_step stage whole
  · -- dequeue
    rename_i free
    split at stepped <;> cases stepped
    rename_i unlocked
    have calm := discharge.queue.calm ((Bool.not_eq_true _).mp unlocked)
    refine discharge.turns state.deadlock_offsets (contents_of_calm calm) (.refl _)
      (fun other _ => calm other) rfl ?_ rfl ⟨rfl, rfl, fun _ set => set⟩ (fun _ _ => rfl)
      (fun _ => rfl) (.inr ⟨rfl, rfl⟩) (fun _ member _ => member) (fun _ => ?_) due puts
    · simp only [State.debt, State.at, State.set_client, Function.update_self, stage]
      rfl
    · rw [stage]
      exact ⟨rfl, rfl⟩
  · cases stepped
    exact discharge.erases custody stage rfl rfl ⟨rfl, rfl, fun _ set => set⟩ rfl rfl rfl
  · cases stepped
    have spinning : (state.clients id).stage.spins = true := by
      rw [stage]
      rfl
    refine discharge.turns state.deadlock_offsets
      (discharge.queue.current spinning (by rw [stage]; rfl)) (.refl _)
      (fun other away => discharge.queue.others_calm spinning away) rfl ?_ rfl
      ⟨rfl, rfl, fun _ set => set⟩ (fun _ _ => rfl) (by intro here; cases here) (.inr ⟨rfl, rfl⟩)
      (fun _ member _ => member) (by intro here; cases here) due puts
    simp only [State.debt, State.at, State.set_client, Function.update_self, stage]
    rfl
  · -- finish
    split at stepped
    · apply discharge.unlocks_other _ stepped
      intro free acquiring
      cases stage.symm.trans acquiring
    · cases stepped
      exact discharge.returns stage rfl
    · cases stepped
      exact discharge.returns stage rfl
    · cases stepped
  · -- unlock
    split at stepped
    · exact discharge.unlocks_own stepped
    · cases stepped
      exact discharge.quiet rfl (by rw [stage]; rfl) rfl rfl (fun _ _ => rfl) rfl rfl
        ⟨rfl, rfl, fun _ set => set⟩
    · cases stepped
  · -- update
    split at stepped
    · split at stepped <;> cases stepped <;> exact goes _ rfl rfl
    · cases stepped
      exact goes _ rfl rfl
    · cases stepped
  · -- store
    cases stepped
    refine discharge.outside id (fun other away => Function.update_of_ne away ..)
      (by rw [stage]; rfl) (by simp only [State.at, State.set_client, Function.update_self]; rfl) rfl
      (fun _ _ => rfl) rfl rfl (fun offset ready taken => ⟨ready, taken, ?_⟩)
      (fun _ _ _ _ free => free)
    change (Function.update state.data _ _ _).1 = _
    rw [Function.update_apply]
    split
    · rename_i same
      rw [same]
    · rfl
  · -- leave
    split at stepped
    · apply discharge.unlocks_other _ stepped
      intro free acquiring
      cases stage.symm.trans acquiring
    · cases stepped
      exact goes _ rfl rfl
    · cases stepped

theorem Discharge.step {action : Action K V} (discharge : Discharge layout state)
    (custody : Custody clean layout state)
    (timely : state.Timely layout action) (stepped : state.step layout action = some next) :
    Discharge layout next := by
  cases action with
  | client id => exact discharge.client_step custody timely stepped
  | agent agent spurious =>
    refine discharge.agents stepped (fun other free again _ goes_on => ?_)
    obtain ⟨locks, possible, rfl⟩ := with_locks_some stepped
    by_cases acting : agent = .other other
    · subst acting
      exact Intents.call_step_attempt goes_on possible
    · rw [Intents.step_calls _ (by simpa [Intents.Action.agent] using acting) possible]
      exact goes_on
  | get_client id =>
    simp only [State.step] at stepped
    split at stepped <;> cases stepped
    rename_i stage
    exact discharge.quiet rfl (by rw [stage]; rfl) rfl rfl (fun _ _ => rfl) rfl rfl
      ⟨rfl, rfl, fun _ set => set⟩
  | get_new_block id block page =>
    simp only [State.step] at stepped
    split at stepped
    · rename_i old_block resume stage
      split at stepped <;> cases stepped
      refine discharge.outside id (fun other away => Function.update_of_ne away ..)
        (by rw [stage]; rfl) ?_ rfl (fun _ _ => rfl) rfl rfl
        (fun _ ready taken => ⟨ready, taken, rfl⟩) (fun _ _ _ _ free => free)
      simp only [State.set_client, Function.update_self]
      cases old_block <;> rfl
    · cases stepped
  | put id key value =>
    simp only [State.step] at stepped
    split at stepped
    · rename_i idle
      obtain ⟨locks, possible, rfl⟩ := with_locks_some stepped
      exact discharge.quiet rfl (by rw [idle]; rfl) rfl rfl
        (fun _ _ => Intents.step_calls _ (by simp [Intents.Action.agent]) possible) rfl rfl
        ⟨rfl, rfl, fun _ set => set⟩
    · cases stepped
  | update id offset key value => exact timely.2.2.elim
  | remove id offset key => exact timely.2.2.elim
  | old_offset id old_offset =>
    simp only [State.step] at stepped
    split at stepped
    · rename_i put slot offset stage
      obtain ⟨taken, same, apart⟩ := timely.2.2 put slot stage
      split at stepped
      · rename_i ready
        exact discharge.begin_free (by rw [stage]; rfl) rfl rfl ready taken same apart stepped
      · cases stepped
    · rename_i stage
      cases stepped
      exact discharge.quiet rfl (by rw [stage]; rfl) rfl rfl (fun _ _ => rfl) rfl rfl
        ⟨rfl, rfl, fun _ set => set⟩
    · cases stepped
  | repair reader page =>
    simp only [State.step] at stepped
    split at stepped
    · refine discharge.agents stepped (fun other free again _ goes_on => ?_)
      obtain ⟨locks, possible, rfl⟩ := with_locks_some stepped
      rw [Intents.step_calls _ (by simp [Intents.Action.agent]) possible]
      exact goes_on
    · cases stepped

omit [DecidableEq K] in
theorem Discharge.opened (opened : state.Opened layout) : Discharge layout state := by
  have outside : ∀ id, (state.clients id).stage.free? = none := by
    intro id
    rw [opened.clients id]
    rfl
  have undebted : ∀ id, state.debt id = none := by
    intro id
    simp only [State.debt, outside id, Option.map_none]
  have owes : ∀ id offset key inserted, ¬state.Owes id offset key inserted := by
    rintro id offset key inserted ⟨_, here⟩
    cases (undebted id).symm.trans here
  have empty : ∀ contents, state.Contents contents → contents = [] := by
    rintro contents (⟨id, rest⟩ | ⟨-, rfl⟩)
    · cases (calm (outside id)).1.symm.trans rest
    · exact opened.deadlock_offsets
  refine ⟨⟨?_, ?_, ?_, ?_, ?_⟩, ⟨?_, ?_, ?_, ?_, ?_, ?_⟩, fun id => Due.outside (outside id), ?_⟩
  · exact fun id offset key inserted here => absurd here (owes _ _ _ _)
  · exact fun id offset key inserted here => absurd here (owes _ _ _ _)
  · exact fun id offset key inserted here => absurd here (owes _ _ _ _)
  · exact fun id other offset key key' inserted inserted' here => absurd here (owes _ _ _ _)
  · exact fun id debt here => nomatch (undebted id).symm.trans here
  · exact fun id spinning => nomatch (calm (outside id)).2.1.symm.trans spinning
  · exact fun id other spinning => nomatch (calm (outside id)).2.1.symm.trans spinning
  · intro contents current
    rw [empty contents current]
    exact List.nodup_nil
  · intro contents entry current member
    rw [empty contents current] at member
    cases member
  · exact fun contents id offset key current here => absurd here (owes _ _ _ _)
  · exact fun id contents entry rest => nomatch (calm (outside id)).1.symm.trans rest
  · exact fun id free calling => nomatch (outside id).symm.trans calling

theorem Timely.custody
    (reached : (opened_machine layout K V).Reach (State.Timely layout) state) :
    Custody (fun _ => False) layout state :=
  .reopened (reached.weaken (fun _ _ timely => ⟨timely.1, timely.2.1⟩))

theorem Discharge.reached
    (reached : (opened_machine layout K V).Reach (State.Timely layout) state) :
    Discharge layout state := by
  apply reached.invariant_reached
  · exact fun _ opened => .opened opened
  · intro _ _ _ before discharge timely stepped
    exact discharge.step (Timely.custody before) timely stepped

omit [DecidableEq K] in
/-- A call has marked its slot at most once, and once when it is done. -/
theorem Due.marks {stage : Stage K V} {marks : Nat} {call : Intents.Call} {free : Free K}
    (due : stage.Due id marks call) (calling : stage.free? = some free) : marks ≤ 1 := by
  cases stage with
  | change site bits =>
    cases site with
    | claim => cases calling
    | own | target => exact due.1 ▸ Nat.zero_le 1
    | queued => exact due.1
  | acquire | spin | scan | release => exact due.1
  | dequeue_spin | dequeue_erase => exact Nat.le_of_eq due.1
  | dequeue_release | finish => exact Nat.le_of_eq due
  | _ => cases calling

/-- Every call of `free_occupied_slot` marks its slot free exactly once by its
end, and whatever slot is marked free is that of a call of a put of the key of
its record. -/
theorem free_occupied_slot_once
    (reached : (opened_machine layout K V).Reach (State.Timely layout) state) :
    (∀ id free, (state.clients id).stage.free? = some free → state.marks id ≤ 1) ∧
      (∀ id free, (state.clients id).stage = .finish free → state.marks id = 1) ∧
      ∀ id site bits next, (state.clients id).stage = .change site (some bits) → site.bit = true →
        state.client_step layout id = some next →
          ∃ caller free, (state.clients caller).stage.free? = some free ∧
            free.offset = site.offset ((state.clients id).v_page layout) ∧
            free.key = (state.data free.offset).1 ∧ free.put.isSome = true ∧
            state.marks caller = 0 ∧ next.marks caller = 1 := by
  have discharge := Discharge.reached reached
  have custody := Timely.custody reached
  refine ⟨fun id free calling => Due.marks (discharge.due id) calling, fun id free stage => ?_,
    fun id site bits next stage marks stepped => ?_⟩
  · have due := discharge.due id
    rw [stage] at due
    exact due
  · have due := discharge.due id
    rw [stage] at due
    -- who owes the slot, and that the step counts for it
    have owes : ∃ caller free, (state.clients caller).stage.free? = some free ∧
        free.offset = site.offset ((state.clients id).v_page layout) ∧ state.marks caller = 0 ∧
        next.marks = Function.update state.marks caller (state.marks caller + 1) := by
      simp only [State.client_step, stage] at stepped
      cases stepped
      cases site with
      | claim => cases marks
      | own free => exact ⟨id, free, by rw [stage]; rfl, rfl, due.1, rfl⟩
      | target free => exact ⟨id, free, by rw [stage]; rfl, rfl, due.1, rfl⟩
      | queued free entry =>
        obtain ⟨caller, calling, same, -, unmarked, -⟩ := discharge.drained custody stage
        exact ⟨entry.client, caller, calling, same, unmarked, rfl⟩
    obtain ⟨caller, free, calling, same, unmarked, counted⟩ := owes
    refine ⟨caller, free, calling, same, ?_, discharge.puts caller free calling, unmarked, ?_⟩
    · have owing : state.Owes caller free.offset free.key free.deadlock_offset_inserted := by
        refine ⟨(state.clients caller).stage.dequeues, ?_⟩
        rw [debt_free calling, unmarked]
      exact (discharge.owed.key _ _ _ _ owing).symm
    · rw [counted, Function.update_self, unmarked]

/-! ### An entry that is no longer in the queue -/

def State.timely (layout : Layout) (state : State K V) (action : Action K V) : Bool :=
  state.orderly layout action && (state.alone action && match action with
    | .update .. | .remove .. | .old_offset _ (some _) => false
    | .client id =>
        match (state.clients id).stage with
        | .acquire free => !free.deadlock_offset_inserted
        | _ => true
    | _ => true)

omit [DecidableEq K] in
theorem Timely.of_timely {action : Action K V} (timely : state.timely layout action = true) :
    state.Timely layout action := by
  obtain ⟨orderly, rest⟩ := Bool.and_eq_true_iff.mp timely
  obtain ⟨alone, rest⟩ := Bool.and_eq_true_iff.mp rest
  refine ⟨Orderly.of_orderly orderly, Alone.of_alone alone, ?_⟩
  cases action with
  | update | remove => cases rest
  | old_offset id offset =>
    cases offset with
    | none => trivial
    | some offset => cases rest
  | client id =>
    intro free stage _ inserted
    simp [stage, inserted] at rest
  | _ => trivial

omit [DecidableEq K] in
theorem has_block_of_free {stage : Stage K V} {free : Free K} (calling : stage.free? = some free) :
    stage.has_block = true := by
  cases stage <;> first | rfl | cases calling

def Stage.finishes : Stage K V → Bool
  | .finish .. => true
  | _ => false

omit [DecidableEq K] in
theorem Stage.finishes_some {stage : Stage K V} (here : stage.finishes = true) :
    ∃ free, stage = .finish free := by
  cases stage with
  | finish free => exact ⟨free, rfl⟩
  | _ => cases here

def overwrites : List (Action Nat Nat) :=
  joins 0 0 ++ writes 0 7 70 ++ [.old_offset 0 none] ++ returns 0 ++ joins 1 1 ++ writes 1 7 71

def frees : List (Action Nat Nat) := locks (.other 1) ++ [.client 1, .client 1, .client 1]

/-- The index has yielded the slot 0 of the page of client 0 to client 1. -/
theorem overwrites_timely {state : State Nat Nat}
    (ran : ((opened_machine small Nat Nat).checked (State.timely small)).run created overwrites =
      some state) :
    (opened_machine small Nat Nat).Reach (State.Timely small) state ∧
      state.Timely small (.old_offset 1 (some ⟨small.page 0 0, 0⟩)) := by
  have seen : ends ((opened_machine small Nat Nat).checked (State.timely small)) overwrites (fun state =>
      decide (state.given = [1, 0] ∧ (state.clients 0).v_block_number = 0 ∧
        (state.clients 1).v_block_number = 1 ∧ (state.clients 0).stage.has_block = true ∧
        (state.clients 1).stage.has_block = true ∧ (state.clients 0).stage.free?.isNone = true ∧
        (state.clients 1).stage.free?.isNone = true ∧
        (state.clients 1).stage.put.map Put.key = some 7 ∧
        state.free_slots (small.page 0 0) 0 = false ∧ (state.data ⟨small.page 0 0, 0⟩).1 = 7)) =
      some true := by
    decide +kernel
  have reached : (opened_machine small Nat Nat).Reach (State.Timely small) state :=
    Machine.Reach.run_checked (.start created_created.opens) (fun _ _ => Timely.of_timely) ran
  have blocks := (Timely.custody reached).blocks
  rw [ends, ran] at seen
  simp only [Option.map_some, Option.some.injEq, decide_eq_true_eq] at seen
  obtain ⟨given, first, second, block, block', outside, outside', put, taken, key⟩ := seen
  refine ⟨reached, trivial, trivial, fun put' slot stage => ⟨taken, ?_, ?_⟩⟩
  · rw [stage] at put
    rw [key]
    exact (Option.some.inj put).symm
  · rintro other key' inserted ⟨_, owes⟩
    obtain ⟨free, calling, -⟩ := debt_some owes
    have theirs := has_block_of_free calling
    have member := (blocks.placed other theirs).1
    rw [given, List.mem_cons, List.mem_singleton] at member
    -- both blocks that are given are those of clients outside any call
    rcases member with here | here
    · have same := blocks.apart other 1 theirs block' (here.trans second.symm)
      rw [same] at calling
      rw [calling] at outside'
      cases outside'
    · have same := blocks.apart other 0 theirs block (here.trans first.symm)
      rw [same] at calling
      rw [calling] at outside
      cases outside

theorem free_occupied_slot_once_overwrite :
    ∃ state free, (opened_machine small Nat Nat).Reach (State.Timely small) state ∧
      (state.clients 1).stage = .finish free ∧ state.marks 1 = 1 := by
  have runs : ((((opened_machine small Nat Nat).checked (State.timely small)).run created overwrites).bind
      fun state => (state.step small (.old_offset 1 (some ⟨small.page 0 0, 0⟩))).bind fun state =>
        ((opened_machine small Nat Nat).checked (State.timely small)).run state frees).map
          (fun state => (state.clients 1).stage.finishes) = some true := by
    decide +kernel
  obtain ⟨last, ran, finishes⟩ := Option.map_eq_some_iff.mp runs
  obtain ⟨state, before, ran⟩ := Option.bind_eq_some_iff.mp ran
  obtain ⟨middle, begins, after⟩ := Option.bind_eq_some_iff.mp ran
  obtain ⟨reached, timely⟩ := overwrites_timely before
  have reached_last : (opened_machine small Nat Nat).Reach (State.Timely small) last :=
    Machine.Reach.run_checked (.move reached timely begins) (fun _ _ => Timely.of_timely) after
  obtain ⟨free, stage⟩ := Stage.finishes_some finishes
  exact ⟨last, free, reached_last, stage, (free_occupied_slot_once reached_last).2.1 1 free stage⟩

/-- Client 1 queues the slot 0 of the page of client 0, which client 0 frees
while it waits for the page of client 2. -/
def drains : List (Action Nat Nat) :=
  joins 0 0 ++ writes 0 7 70 ++ [.old_offset 0 none] ++ returns 0 ++
    joins 2 2 ++ writes 2 8 80 ++ [.old_offset 2 none] ++ returns 2 ++
    joins 1 1 ++ writes 2 5 50 ++ writes 0 8 81 ++ writes 1 7 71 ++
    [.old_offset 1 (some ⟨small.page 0 0, 0⟩)] ++ List.replicate 35 (.agent (.other 1) false) ++
    List.replicate 5 (.client 1) ++ List.replicate 6 (.agent (.other 1) false) ++
    [.old_offset 0 (some ⟨small.page 2 0, 0⟩)] ++ List.replicate 35 (.agent (.other 0) false) ++
    List.replicate 8 (.client 0) ++ List.replicate 10 (.agent (.other 0) false)

/-- Clients 2 and 0 return, client 0 puts another record into the slot, and then
client 1 gets the lock of the page. -/
def reuses : List (Action Nat Nat) :=
  [.old_offset 2 none] ++ returns 2 ++ List.replicate 2 (.agent (.other 0) false) ++
    List.replicate 7 (.client 0) ++ List.replicate 2 (.agent (.other 0) false) ++ [.client 0] ++
    returns 0 ++ writes 0 3 30 ++ [.old_offset 0 none] ++ returns 0 ++
    List.replicate 2 (.agent (.other 1) false) ++ List.replicate 2 (.client 1)

theorem drained_twice :
    ∃ state next free bits, (machine small Nat Nat).Reachable state ∧
      (state.clients 1).stage = .change (.target free) (some bits) ∧ free.key = 7 ∧
      state.marks 1 = 1 ∧ state.returned free.offset = true ∧ state.data free.offset = (3, 30) ∧
      state.step small (.client 1) = some next ∧ next.marks 1 = 2 ∧
      next.free_slots free.offset.page free.offset.data_offset = true := by
  have before : ends (machine small Nat Nat) (drains ++ reuses) (fun state =>
      ((state.clients 1).stage.changing, decide (
        (state.clients 1).stage.free?.map (fun free => (free.offset, free.key)) =
          some (⟨small.page 0 0, 0⟩, 7) ∧
        state.marks 1 = 1 ∧ state.returned ⟨small.page 0 0, 0⟩ = true ∧
          state.data ⟨small.page 0 0, 0⟩ = (3, 30)))) =
      some (some (small.page 0 0, true), true) := by
    decide +kernel
  have after : ends (machine small Nat Nat) (drains ++ reuses ++ [.client 1]) (fun state =>
      (state.marks 1, state.free_slots (small.page 0 0) 0)) = some (2, true) := by
    decide +kernel
  obtain ⟨state, ran, here⟩ := Option.map_eq_some_iff.mp before
  obtain ⟨next, ran_on, marked⟩ := Option.map_eq_some_iff.mp after
  simp only [Prod.mk.injEq, decide_eq_true_eq] at here marked
  obtain ⟨changing, called, marks, returned, data⟩ := here
  obtain ⟨free, bits, stage, -⟩ := Stage.changing_some changing
  have offset : free.offset = ⟨small.page 0 0, 0⟩ ∧ free.key = 7 := by
    rw [stage] at called
    simpa [Stage.free?, Site.free?] using called
  have stepped : state.step small (.client 1) = some next := by
    rw [Machine.run_append, ran] at ran_on
    simp only [Option.bind_some, Machine.run] at ran_on
    split at ran_on
    · rename_i middle moved
      cases ran_on
      exact moved
    · cases ran_on
  refine ⟨state, next, free, bits, .run (.start created_created) ran, stage, offset.2, marks, ?_, ?_,
    stepped, marked.1, ?_⟩
  · rw [offset.1]
    exact returned
  · rw [offset.1]
    exact data
  · rw [offset.1]
    exact marked.2

end Hiom.Viper.Pages
