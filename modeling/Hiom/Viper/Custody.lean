import Hiom.Viper.Pages
import Hiom.Viper.Repair

/-!
Who may change the free slots of a page: the client that holds its lock, as
long as a `remove` stays away from the page of its client and no lock is
repaired by two repairers at once.
-/

namespace Hiom.Viper.Pages

open Intents (Page)

variable {K V : Type} {layout : Layout} {clean : Page → Prop} {state next : State K V} {id : Nat}

/-- No `remove` frees a slot on the page of its own client, neither its own nor
one it finds in the queue, and few locks of a page come and go while its lock is
repaired. -/
def State.Orderly (layout : Layout) (state : State K V) : Action K V → Prop
  | .agent agent spurious => state.locks.Few (.call agent spurious)
  | .remove id offset _ => offset.page ≠ (state.clients id).v_page layout
  | .client id => ∀ free entry todo new_offsets,
      (state.clients id).stage = .scan free (entry :: todo) new_offsets → free.put = none →
        entry.offset.page ≠ (state.clients id).v_page layout
  | _ => True

/-- Nobody else has repaired a lock since the reload of a repair that is about to
succeed. -/
def State.Alone (state : State K V) : Action K V → Prop
  | .agent agent spurious => state.locks.Alone (.call agent spurious)
  | _ => True

/-! ### What a stage needs -/

def Stage.in_put : Stage K V → Bool
  | .write .. | .resolve .. | .change (.claim ..) _ => true
  | .change (.own free) _ | .change (.queued free ..) _ | .change (.target free) _
  | .acquire free | .spin free | .scan free .. | .release free | .dequeue_spin free
  | .dequeue_erase free | .dequeue_release free | .finish free => free.put.isSome
  | _ => false

def Stage.away : Stage K V → Bool
  | .new | .claim .. | .disown .. | .init .. | .own .. => true
  | _ => false

def Stage.has_block : Stage K V → Bool
  | .new | .claim none _ => false
  | _ => true

def Stage.unready : Stage K V → Bool
  | .disown .. | .init .. | .own .. => true
  | _ => false

/-- The page that the other agent of the client tries to lock. -/
def Stage.target : Stage K V → Option Page
  | .acquire free | .spin free | .scan free .. | .release free | .change (.queued free ..) _ =>
      some free.offset.page
  | .update offset .. => some offset.page
  | _ => none

def Stage.marked : Stage K V → Option Page
  | .change (.target free) _ | .dequeue_spin free | .dequeue_erase free
  | .dequeue_release free => some free.offset.page
  | .store offset _ => some offset.page
  | _ => none

def Stage.claims : Stage K V → Option Nat
  | .write _ slot _ | .change (.claim _ slot) _ => some slot
  | _ => none

/-- A change without a lock of its own is one on the page of a put. -/
def Site.Placed (v_page : Page) : Site K V → Prop
  | .claim .. | .target .. => True
  | .own free => free.offset.page = v_page ∧ free.put.isSome = true
  | .queued free entry .. => entry.offset.page = v_page ∧ free.put.isSome = true

structure StageSound (state : State K V) (id : Nat) (v_page : Page) (stage : Stage K V) : Prop where
  away : stage.away = true → state.locks.calls (.own id) = .idle
  in_put : stage.in_put = true → state.locks.Keeps (.own id) v_page
  target : ∀ goal page, stage.target = some goal →
    (state.locks.calls (.other id)).page = some page → page = goal
  marked : ∀ goal, stage.marked = some goal → state.locks.Keeps (.other id) goal
  placed : ∀ site bits, stage = .change site bits → site.Placed v_page
  bits : ∀ site bits, stage = .change site (some bits) →
    bits = state.free_slots (site.offset v_page).page
  unready : stage.unready = true → state.ready v_page = false
  settled : stage.away = false → state.ready v_page = true
  claims : ∀ slot, stage.claims = some slot → state.free_slots v_page slot = true

structure Blocks (layout : Layout) (state : State K V) : Prop where
  placed : ∀ id, (state.clients id).stage.has_block = true →
    (state.clients id).v_block_number ∈ state.given ∧
      (state.clients id).v_page_number < layout.num_pages_per_block ∧
      (state.clients id).num_v_pages_processed < layout.num_pages_per_block
  apart : ∀ id other, (state.clients id).stage.has_block = true →
    (state.clients other).stage.has_block = true →
      (state.clients id).v_block_number = (state.clients other).v_block_number → id = other
  given : ∀ block page, page < layout.num_pages_per_block →
    state.ready (layout.page block page) = true → block ∈ state.given
  ahead : ∀ id i, (state.clients id).stage.has_block = true → 0 < i →
    i + (state.clients id).num_v_pages_processed < layout.num_pages_per_block →
      state.ready (layout.page (state.clients id).v_block_number
        (((state.clients id).v_page_number + i) % layout.num_pages_per_block)) = false

/-- The pages that are `clean` have no stale lock. -/
structure Custody (clean : Page → Prop) (layout : Layout) (state : State K V) : Prop where
  locks : Intents.Sound clean state.locks
  unrepaired : ∀ page, clean page → (state.locks.seen page).repairs = 0
  ready : ∀ agent page, (state.locks.calls agent).page = some page → state.ready page = true
  blocks : Blocks layout state
  own_page : ∀ id page, (state.locks.calls (.own id)).page = some page →
    page = (state.clients id).v_page layout
  stages : ∀ id, StageSound state id ((state.clients id).v_page layout) (state.clients id).stage

theorem in_put_of_claims {stage : Stage K V} {slot : Nat} (claims : stage.claims = some slot) :
    stage.in_put = true := by
  cases stage with
  | change site bits => cases site <;> first | rfl | cases claims
  | _ => first | rfl | cases claims

theorem Site.Placed.page {v_page : Page} {site : Site K V} (placed : site.Placed v_page)
    (away : ∀ free, site ≠ .target free) : (site.offset v_page).page = v_page := by
  cases site with
  | claim => rfl
  | own => exact placed.1
  | queued => exact placed.1
  | target free => exact absurd rfl (away free)

/-- Whoever changes the free slots of a page has its lock. -/
theorem StageSound.keeps {v_page : Page} {site : Site K V} {bits : Option (Nat → Bool)}
    (sound : StageSound state id v_page (.change site bits)) :
    ∃ agent, (agent = .own id ∨ agent = .other id) ∧
      state.locks.Keeps agent (site.offset v_page).page := by
  have placed := sound.placed site bits rfl
  cases site with
  | claim => exact ⟨.own id, .inl rfl, sound.in_put rfl⟩
  | own =>
    refine ⟨.own id, .inl rfl, ?_⟩
    rw [placed.page (by simp)]
    exact sound.in_put placed.2
  | queued =>
    refine ⟨.own id, .inl rfl, ?_⟩
    rw [placed.page (by simp)]
    exact sound.in_put placed.2
  | target free => exact ⟨.other id, .inr rfl, sound.marked _ rfl⟩

/-! ### What a step leaves alone -/

theorem StageSound.of_away {v_page : Page} {stage : Stage K V} (between : stage.away = true)
    (idle : stage.away = true → state.locks.calls (.own id) = .idle)
    (unready : stage.unready = true → state.ready v_page = false) :
    StageSound state id v_page stage := by
  cases stage with
  | new | claim | disown | init | own =>
    exact ⟨idle, nofun, nofun, nofun, nofun, nofun, unready, nofun, nofun⟩
  | _ => cases between

theorem StageSound.frame {v_page : Page} {stage : Stage K V}
    (sound : StageSound state id v_page stage)
    (own : next.locks.calls (.own id) = state.locks.calls (.own id))
    (other : next.locks.calls (.other id) = state.locks.calls (.other id))
    (bits : ∀ agent page, agent = .own id ∨ agent = .other id → state.locks.Keeps agent page →
      next.free_slots page = state.free_slots page)
    (unready : stage.unready = true → next.ready v_page = false)
    (ready : ∀ page, state.ready page = true → next.ready page = true) :
    StageSound next id v_page stage := by
  refine ⟨?_, ?_, ?_, ?_, sound.placed, fun site loaded here => ?_, unready,
    fun here => ready _ (sound.settled here), fun slot here => ?_⟩
  · rw [own]
    exact sound.away
  · unfold Intents.State.Keeps
    rw [own]
    exact sound.in_put
  · rw [other]
    exact sound.target
  · unfold Intents.State.Keeps
    rw [other]
    exact sound.marked
  · subst here
    obtain ⟨agent, mine, keeps⟩ := sound.keeps
    rw [bits agent _ mine keeps]
    exact sound.bits site loaded rfl
  · rw [bits (.own id) _ (.inl rfl) (sound.in_put (in_put_of_claims here))]
    exact sound.claims slot here

/-- What a step of a client has to show. -/
theorem Custody.client_moves (id : Nat) (custody : Custody clean layout state)
    (clients : ∀ other, other ≠ id → next.clients other = state.clients other)
    (locks : Intents.Sound clean next.locks)
    (seen : next.locks.seen = state.locks.seen)
    (calls : ∀ agent, agent ≠ .own id → agent ≠ .other id →
      next.locks.calls agent = state.locks.calls agent)
    (called : ∀ agent page, agent = .own id ∨ agent = .other id →
      (next.locks.calls agent).page = some page → next.ready page = true)
    (bits : ∀ agent page, agent ≠ .own id → agent ≠ .other id → state.locks.Keeps agent page →
      next.free_slots page = state.free_slots page)
    (ready : ∀ page, state.ready page = true → next.ready page = true)
    (unready : ∀ other, other ≠ id → (state.clients other).stage.unready = true →
      next.ready ((state.clients other).v_page layout) = false)
    (blocks : Blocks layout next)
    (own_page : ∀ page, (next.locks.calls (.own id)).page = some page →
      page = (next.clients id).v_page layout)
    (mine : StageSound next id ((next.clients id).v_page layout) (next.clients id).stage) :
    Custody clean layout next := by
  have apart : ∀ other, other ≠ id → Agent.own other ≠ .own id ∧ Agent.own other ≠ .other id ∧
      Agent.other other ≠ .own id ∧ Agent.other other ≠ .other id := by
    intro other away
    simp [away]
  refine ⟨locks, ?_, fun agent page about => ?_, blocks, fun other page about => ?_, fun other => ?_⟩
  · rw [seen]
    exact custody.unrepaired
  · by_cases here : agent = .own id ∨ agent = .other id
    · exact called agent page here about
    · rw [calls agent (fun same => here (.inl same)) (fun same => here (.inr same))] at about
      exact ready page (custody.ready agent page about)
  · by_cases here : other = id
    · subst here
      exact own_page page about
    · obtain ⟨own, own', -, -⟩ := apart other here
      rw [calls _ own own'] at about
      rw [clients other here]
      exact custody.own_page other page about
  · by_cases here : other = id
    · subst here
      exact mine
    · obtain ⟨own, own', aside, aside'⟩ := apart other here
      rw [clients other here]
      refine (custody.stages other).frame (calls _ own own') (calls _ aside aside') ?_
        (unready other here) ready
      rintro agent page (rfl | rfl) keeps
      · exact bits _ page own own' keeps
      · exact bits _ page aside aside' keeps

theorem Blocks.keep (blocks : Blocks layout state)
    (block : ∀ id, (next.clients id).v_block_number = (state.clients id).v_block_number)
    (page : ∀ id, (next.clients id).v_page_number = (state.clients id).v_page_number)
    (processed : ∀ id, (next.clients id).num_v_pages_processed =
      (state.clients id).num_v_pages_processed)
    (has_block : ∀ id, (next.clients id).stage.has_block = (state.clients id).stage.has_block)
    (given : next.given = state.given) (ready : next.ready = state.ready) :
    Blocks layout next := by
  refine ⟨?_, ?_, ?_, ?_⟩
  · simpa only [block, page, processed, has_block, given] using blocks.placed
  · simpa only [block, has_block] using blocks.apart
  · simpa only [given, ready] using blocks.given
  · simpa only [block, page, processed, has_block, ready] using blocks.ahead

/-- A client goes on to a stage, and no free slots change. -/
theorem Custody.goes {stage : Stage K V} (custody : Custody clean layout state)
    (clients : next.clients = Function.update state.clients id
      { state.clients id with stage := stage })
    (locks : Intents.Sound clean next.locks)
    (seen : next.locks.seen = state.locks.seen)
    (calls : ∀ agent, agent ≠ .own id → agent ≠ .other id →
      next.locks.calls agent = state.locks.calls agent)
    (called : ∀ agent page, agent = .own id ∨ agent = .other id →
      (next.locks.calls agent).page = some page → state.ready page = true)
    (own_page : ∀ page, (next.locks.calls (.own id)).page = some page →
      page = (state.clients id).v_page layout)
    (free_slots : next.free_slots = state.free_slots)
    (given : next.given = state.given) (ready : next.ready = state.ready)
    (has_block : stage.has_block = (state.clients id).stage.has_block)
    (mine : StageSound next id ((state.clients id).v_page layout) stage) :
    Custody clean layout next := by
  have at_id : next.clients id = { state.clients id with stage := stage } := by
    rw [clients, Function.update_self]
  have at_other : ∀ other, other ≠ id → next.clients other = state.clients other :=
    fun other away => by rw [clients, Function.update_of_ne away]
  have page : (next.clients id).v_page layout = (state.clients id).v_page layout := by
    rw [at_id]
    rfl
  have blocks : Blocks layout next := by
    refine custody.blocks.keep ?_ ?_ ?_ ?_ given ready <;> intro other <;>
      by_cases here : other = id
    · rw [here, at_id]
    · rw [at_other other here]
    · rw [here, at_id]
    · rw [at_other other here]
    · rw [here, at_id]
    · rw [at_other other here]
    · rw [here, at_id, has_block]
    · rw [at_other other here]
  refine custody.client_moves id at_other locks seen calls (fun agent page mine about => ?_)
    (fun _ _ _ _ _ => by rw [free_slots]) (fun _ set => by rwa [ready])
    (fun other _ unready => ?_) blocks (fun page' about => ?_) ?_
  · rw [ready]
    exact called agent page mine about
  · rw [ready]
    exact (custody.stages other).unready unready
  · rw [page]
    exact own_page page' about
  · rw [page, at_id]
    exact mine

/-- A client goes on to a stage, and its agents stay where they are. -/
theorem Custody.stage {stage : Stage K V} (custody : Custody clean layout state)
    (clients : next.clients = Function.update state.clients id
      { state.clients id with stage := stage })
    (locks : next.locks = state.locks) (free_slots : next.free_slots = state.free_slots)
    (given : next.given = state.given) (ready : next.ready = state.ready)
    (has_block : stage.has_block = (state.clients id).stage.has_block)
    (mine : StageSound state id ((state.clients id).v_page layout) stage) :
    Custody clean layout next := by
  refine custody.goes clients (locks ▸ custody.locks) (by rw [locks]) (fun _ _ _ => by rw [locks])
    (fun agent page _ about => ?_) (fun page about => ?_) free_slots given ready has_block ?_
  · rw [locks] at about
    exact custody.ready agent page about
  · rw [locks] at about
    exact custody.own_page id page about
  · refine mine.frame (by rw [locks]) (by rw [locks]) (fun _ _ _ _ => by rw [free_slots])
      (fun unready => ?_) (fun _ set => by rwa [ready])
    rw [ready]
    exact mine.unready unready

/-- A client goes on to a stage with a step of one of its agents. -/
theorem Custody.agent {action : Intents.Action Agent} {call : Intents.Call} (agent : Agent)
    (stage : Stage K V) (custody : Custody clean layout state)
    (stepped : state.locks.step action = some next.locks)
    (plain : ∀ agent spurious, action ≠ .call agent spurious)
    (calls : next.locks = state.locks.at agent call)
    (mine : agent = .own id ∨ agent = .other id)
    (called : ∀ page, call.page = some page → state.ready page = true)
    (own_page : ∀ page, agent = .own id → call.page = some page →
      page = (state.clients id).v_page layout)
    (clients : next.clients = Function.update state.clients id
      { state.clients id with stage := stage })
    (free_slots : next.free_slots = state.free_slots)
    (given : next.given = state.given) (ready : next.ready = state.ready)
    (has_block : stage.has_block = (state.clients id).stage.has_block)
    (sound : StageSound next id ((state.clients id).v_page layout) stage) :
    Custody clean layout next := by
  have few : state.locks.Few action ∧ state.locks.Alone action := by
    cases action with
    | call agent spurious => exact absurd rfl (plain agent spurious)
    | _ => exact ⟨trivial, trivial⟩
  have about : ∀ other page, (next.locks.calls other).page = some page →
      other = agent ∧ call.page = some page ∨
        (state.locks.calls other).page = some page := by
    intro other page about
    simp only [calls, Intents.State.at, Function.update_apply] at about
    split at about
    · exact .inl ⟨‹_›, about⟩
    · exact .inr about
  refine custody.goes clients (custody.locks.step few.1 few.2 stepped) (by rw [calls]; rfl)
    (fun other own aside => ?_) (fun other page _ here => ?_) (fun page here => ?_) free_slots given
    ready has_block sound
  · have away : other ≠ agent := by
      rintro rfl
      exact mine.elim own aside
    rw [calls]
    exact Function.update_of_ne away ..
  · rcases about other page here with ⟨-, new⟩ | old
    · exact called page new
    · exact custody.ready other page old
  · rcases about (.own id) page here with ⟨same, new⟩ | old
    · exact own_page page same.symm new
    · exact custody.own_page id page old

/-! ### Steps of agents -/

theorem with_locks_some {action : Intents.Action Agent} (stepped : state.with_locks action = some next) :
    ∃ locks, state.locks.step action = some locks ∧ next = { state with locks := locks } := by
  unfold State.with_locks at stepped
  obtain ⟨locks, possible, rfl⟩ := Option.map_eq_some_iff.mp stepped
  exact ⟨locks, possible, rfl⟩

/-- An agent goes on by itself. -/
theorem Custody.call {agent : Agent} {spurious : Bool} (custody : Custody clean layout state)
    (few : state.locks.Few (.call agent spurious)) (alone : state.locks.Alone (.call agent spurious))
    (stepped : state.with_locks (.call agent spurious) = some next) : Custody clean layout next := by
  obtain ⟨locks, possible, rfl⟩ := with_locks_some stepped
  obtain ⟨call, page, calls, about, goes_on, -, repairs⟩ := Intents.call_step_local possible
  have at_agent : locks.calls agent = call := by rw [calls, Function.update_self]
  have at_other : ∀ other, other ≠ agent → locks.calls other = state.locks.calls other :=
    fun other away => by rw [calls, Function.update_of_ne away]
  have still : ∀ other page', state.locks.Keeps other page' → locks.Keeps other page' := by
    intro other page' keeps
    by_cases here : other = agent
    · subst here
      cases possible.symm.trans keeps.still
    · unfold Intents.State.Keeps
      rw [at_other other here]
      exact keeps
  have same_page : ∀ other page', (locks.calls other).page = some page' →
      (state.locks.calls other).page = some page' := by
    intro other page' here
    by_cases acting : other = agent
    · subst acting
      rw [at_agent] at here
      rcases goes_on with idle | same
      · rw [idle] at here
        cases here
      · rwa [about, ← same]
    · rwa [at_other other acting] at here
  refine ⟨custody.locks.step few alone possible, fun page' spared => ?_,
    fun other page' here => custody.ready other page' (same_page other page' here),
    custody.blocks.keep (fun _ => rfl) (fun _ => rfl) (fun _ => rfl) (fun _ => rfl) rfl rfl,
    fun client page' here => custody.own_page client page' (same_page _ page' here),
    fun client => ?_⟩
  · rcases repairs page' with same | ⟨seen, repairing⟩
    · exact same.trans (custody.unrepaired page' spared)
    · exact absurd repairing
        (custody.locks.never_repairs spared (custody.unrepaired page' spared) few seen)
  · obtain ⟨away, in_put, target, marked, placed, bits, unready, settled, claims⟩ :=
      custody.stages client
    refine ⟨fun here => ?_, fun here => still _ _ (in_put here),
      fun goal page' here there => target goal page' here (same_page _ page' there),
      fun goal here => still _ _ (marked goal here), placed, bits, unready, settled, claims⟩
    have idle := away here
    by_cases acting : Agent.own client = agent
    · subst acting
      rw [idle] at about
      cases about
    · rw [at_other _ acting]
      exact idle

/-- A client owns or disowns the first page of a block. -/
theorem Custody.owned {action : Intents.Action Agent} (custody : Custody clean layout state)
    (kind : ∃ page, action = .own page ∨ action = .disown page)
    (stepped : state.with_locks action = some next) : Custody clean layout next := by
  obtain ⟨locks, possible, rfl⟩ := with_locks_some stepped
  have marked : ∃ page lock, locks = state.locks.set_lock page lock (state.locks.seen page) := by
    obtain ⟨page, rfl | rfl⟩ := kind <;> cases possible
    · exact ⟨page, _, rfl⟩
    · exact ⟨page, _, rfl⟩
  have sound : Intents.Sound clean locks := by
    have few : state.locks.Few action ∧ state.locks.Alone action := by
      obtain ⟨page, rfl | rfl⟩ := kind <;> exact ⟨trivial, trivial⟩
    exact custody.locks.step few.1 few.2 possible
  obtain ⟨page, lock, rfl⟩ := marked
  refine ⟨sound, ?_, custody.ready,
    custody.blocks.keep (fun _ => rfl) (fun _ => rfl) (fun _ => rfl) (fun _ => rfl) rfl rfl,
    custody.own_page, fun other => ?_⟩
  · simpa only [Intents.State.set_lock, Function.update_eq_self] using custody.unrepaired
  · exact (custody.stages other).frame rfl rfl (fun _ _ _ _ => rfl) (custody.stages other).unready
      (fun _ set => set)

/-- No call is about the page of a client that is still to initialise it. -/
theorem Custody.untouched (id : Nat) (custody : Custody clean layout state)
    (unready : (state.clients id).stage.unready = true) (agent : Agent) :
    (state.locks.calls agent).page ≠ some ((state.clients id).v_page layout) := by
  intro about
  have ready := custody.ready agent _ about
  rw [(custody.stages id).unready unready] at ready
  cases ready

theorem has_block_of_unready {stage : Stage K V} (unready : stage.unready = true) :
    stage.has_block = true := by
  cases stage <;> first | rfl | cases unready

theorem turn_away {n p i : Nat} (inside : p < n) (ahead : 0 < i) (few : i < n) :
    (p + i) % n ≠ p := by
  by_cases fits : p + i < n
  · rw [Nat.mod_eq_of_lt fits]
    omega
  · rw [Nat.mod_eq_sub_mod (Nat.le_of_not_lt fits), Nat.mod_eq_of_lt (by omega)]
    omega

/-- Clients with a block each have pages of their own. -/
theorem Blocks.page_apart (blocks : Blocks layout state) {other : Nat} {page : Nat}
    (block : (state.clients id).stage.has_block = true)
    (block' : (state.clients other).stage.has_block = true)
    (inside : page < layout.num_pages_per_block)
    (same : layout.page (state.clients other).v_block_number page =
      (state.clients id).v_page layout) : other = id ∧ page = (state.clients id).v_page_number := by
  have apart := layout.apart _ _ _ _ inside (blocks.placed id block).2.1 same
  exact ⟨blocks.apart other id block' block apart.1, apart.2⟩

theorem Blocks.ready (id : Nat) (blocks : Blocks layout state)
    (block : (state.clients id).stage.has_block = true)
    (clients : next.clients = state.clients) (given : next.given = state.given)
    (ready : next.ready = Function.update state.ready ((state.clients id).v_page layout) true) :
    Blocks layout next := by
  have placed := blocks.placed id block
  refine ⟨?_, ?_, fun number page inside set => ?_, fun other i block' ahead few => ?_⟩
  · simpa only [clients, given] using blocks.placed
  · simpa only [clients] using blocks.apart
  · rw [given]
    rw [ready, Function.update_apply] at set
    split at set
    · rename_i same
      rw [(layout.apart _ _ _ _ inside placed.2.1 same).1]
      exact placed.1
    · exact blocks.given number page inside set
  · rw [clients] at block' few ⊢
    rw [ready, Function.update_of_ne]
    · exact blocks.ahead other i block' ahead few
    · intro same
      obtain ⟨rfl, again⟩ :=
        blocks.page_apart block block' (Nat.mod_lt _ layout.pages_pos) same
      exact turn_away placed.2.1 ahead (by omega) again

/-- The page of a client becomes ready. -/
theorem Custody.initialised (id : Nat) (custody : Custody clean layout state)
    (unready : (state.clients id).stage.unready = true) :
    Custody clean layout ((state.initialised ((state.clients id).v_page layout)).at id .idle) := by
  have block := has_block_of_unready unready
  have at_id : (state.at id .idle).clients id = { state.clients id with stage := .idle } :=
    Function.update_self ..
  have at_other : ∀ other, other ≠ id → (state.at id .idle).clients other = state.clients other :=
    fun other away => Function.update_of_ne away ..
  have grows : ∀ page, state.ready page = true →
      ((state.initialised ((state.clients id).v_page layout)).at id .idle).ready page = true := by
    intro page before
    simp only [State.at, State.set_client, State.initialised, Function.update_apply, before, ite_self]
  have at_mine : ((state.initialised ((state.clients id).v_page layout)).at id .idle).clients id =
      { state.clients id with stage := .idle } := Function.update_self ..
  have mine : ((state.initialised ((state.clients id).v_page layout)).at id .idle).ready
      ((state.clients id).v_page layout) = true := by
    simp only [State.at, State.set_client, State.initialised, Function.update_self]
  have blocks : Blocks layout (state.at id .idle) := by
    refine custody.blocks.keep ?_ ?_ ?_ ?_ rfl rfl <;> intro other <;> by_cases here : other = id
    · rw [here, at_id]
    · rw [at_other other here]
    · rw [here, at_id]
    · rw [at_other other here]
    · rw [here, at_id]
    · rw [at_other other here]
    · rw [here, at_id, block]
      rfl
    · rw [at_other other here]
  refine custody.client_moves id at_other custody.locks rfl (fun _ _ _ => rfl)
    (fun agent page _ about => grows page (custody.ready agent page about)) (fun _ _ _ _ _ => rfl)
    grows (fun other apart before => ?_) ?_ (fun page about => ?_) ?_
  · have away : (state.clients other).v_page layout ≠ (state.clients id).v_page layout := by
      intro same
      have block' := has_block_of_unready before
      exact apart (custody.blocks.page_apart block block' (custody.blocks.placed other block').2.1
        same).1
    simp only [State.at, State.set_client, State.initialised, Function.update_of_ne away]
    exact (custody.stages other).unready before
  · refine blocks.ready id ?_ rfl rfl ?_
    · rw [at_id]
      rfl
    · rw [at_id]
      rfl
  · rw [at_mine]
    exact custody.own_page id page about
  · rw [at_mine]
    exact ⟨nofun, nofun, nofun, nofun, nofun, nofun, nofun, fun _ => mine, nofun⟩

theorem begin_put_at (stage : Stage K V) (put : Put K V) :
    (state.at id stage).begin_put layout id put = state.begin_put layout id put := by
  simp only [State.begin_put, State.at, State.set_client, Function.update_idem,
    Function.update_self, Client.v_page]

theorem at_self (state : State K V) (id : Nat) (stage : Stage K V) :
    (state.at id stage).clients id = { state.clients id with stage := stage } :=
  Function.update_self ..

/-- A client without a call takes the lock of its page for a put. -/
theorem Custody.begin_put {put : Put K V} (custody : Custody clean layout state)
    (idle : (state.clients id).stage = .idle)
    (stepped : state.begin_put layout id put = some next) : Custody clean layout next := by
  have sound := custody.stages id
  rw [idle] at sound
  obtain ⟨locks, possible, rfl⟩ := with_locks_some stepped
  obtain ⟨free, locked⟩ := Intents.lock_step possible
  refine custody.agent (.own id) (.lock put) possible (fun _ _ => nofun) locked (.inl rfl)
    (fun page about => ?_) (fun page _ about => ?_) rfl rfl rfl rfl (by rw [idle]; rfl) ?_
  · cases about
    exact sound.settled rfl
  · cases about
    rfl
  · refine ⟨nofun, nofun, nofun, nofun, nofun, nofun, nofun, fun _ => sound.settled rfl, nofun⟩

theorem keeps_aside {locks : Intents.State Agent} {agent other : Agent} {call : Intents.Call}
    {page : Page} (apart : agent ≠ other) (keeps : locks.Keeps agent page) :
    (locks.at other call).Keeps agent page := by
  obtain ⟨path, li_slot, here⟩ := keeps
  exact ⟨path, li_slot, (Function.update_of_ne apart ..).trans here⟩

theorem called_page {locks : Intents.State Agent} {agent : Agent} {call : Intents.Call} {page : Page}
    (about : ((locks.at agent call).calls agent).page = some page) : call.page = some page := by
  simpa only [Intents.State.at, Function.update_self] using about

theorem Custody.begin_free (free : Free K) (custody : Custody clean layout state)
    (here : (state.clients id).stage.away = false)
    (in_put : free.put.isSome = true →
      state.locks.Keeps (.own id) ((state.clients id).v_page layout))
    (elsewhere : free.put.isSome = false → free.offset.page ≠ (state.clients id).v_page layout)
    (ready : state.ready free.offset.page = true)
    (stepped : state.begin_free layout id free = some next) : Custody clean layout next := by
  have settled := (custody.stages id).settled here
  have block : (state.clients id).stage.has_block = true := by
    cases stage : (state.clients id).stage <;> rw [stage] at here <;>
      first | rfl | cases here
  simp only [State.begin_free] at stepped
  split at stepped
  · rename_i same
    cases stepped
    refine custody.stage rfl rfl rfl rfl rfl block.symm
      ⟨nofun, in_put, nofun, nofun, fun site bits this => ?_, nofun, nofun, fun _ => settled, nofun⟩
    cases this
    refine ⟨same, ?_⟩
    by_contra outside
    exact elsewhere ((Bool.not_eq_true _).mp outside) same
  · obtain ⟨locks, possible, rfl⟩ := with_locks_some stepped
    obtain ⟨idle, locked⟩ := Intents.lock_step possible
    refine custody.agent (.other id) (.acquire free) possible (fun _ _ => nofun) locked (.inr rfl)
      (fun page about => ?_) (fun page own => nomatch own) rfl rfl rfl rfl block.symm ?_
    · cases about
      exact ready
    · subst locked
      refine ⟨nofun, fun put => keeps_aside (by simp) (in_put put), fun goal page this about => ?_,
        nofun, nofun, nofun, nofun, fun _ => settled, nofun⟩
      cases this
      cases called_page about
      rfl

/-- A client lets go of a lock that its stage does not need. -/
theorem Custody.unlocks {agent : Agent} (custody : Custody clean layout state)
    (mine : agent = .own id ∧ (state.clients id).stage.in_put = false ∨ agent = .other id)
    (away : (state.clients id).stage.away = false)
    (target : (state.clients id).stage.target = none)
    (marked : (state.clients id).stage.marked = none)
    (still : ∀ site bits, (state.clients id).stage ≠ .change site bits)
    (unready : (state.clients id).stage.unready = false)
    (stepped : state.with_locks (.unlock agent) = some next) : Custody clean layout next := by
  obtain ⟨locks, possible, rfl⟩ := with_locks_some stepped
  obtain ⟨path, page, li_slot, holding, unlocked⟩ := Intents.unlock_step possible
  have about : (state.locks.calls agent).page = some page := by
    rw [holding]
    rfl
  refine custody.agent agent (state.clients id).stage possible (fun _ _ => nofun) unlocked
    (mine.imp_left And.left) (fun other same => ?_) (fun other own same => ?_)
    (Function.update_eq_self ..).symm rfl rfl rfl rfl ?_
  · cases same
    exact custody.ready agent page about
  · cases same
    rw [own] at about
    exact custody.own_page id page about
  · have settled := (custody.stages id).settled away
    refine ⟨fun here => ?_, fun put => ?_, fun goal other here => ?_, fun goal here => ?_,
      fun site bits here => absurd here (still site bits),
      fun site bits here => absurd here (still site _), fun here => ?_, fun _ => settled,
      (custody.stages id).claims⟩
    · rw [away] at here
      cases here
    · rcases mine with ⟨-, outside⟩ | rfl
      · rw [outside] at put
        cases put
      · subst unlocked
        exact keeps_aside (by simp) ((custody.stages id).in_put put)
    · rw [target] at here
      cases here
    · rw [marked] at here
      cases here
    · rw [unready] at here
      cases here

/-! ### New pages -/

/-- `init` stores the lock of a page. -/
theorem Custody.init_lock {kind : Init} {resume : Option (Put K V)} (custody : Custody clean layout state)
    (stage : (state.clients id).stage = .init kind none resume) :
    Custody clean layout { state.at id (.init kind (some 0) resume) with
      locks := state.locks.set_lock ((state.clients id).v_page layout) USED_BIT
        (state.locks.seen ((state.clients id).v_page layout)) } := by
  have sound := custody.stages id
  rw [stage] at sound
  have untouched := custody.untouched id (by rw [stage]; rfl)
  refine custody.goes rfl (custody.locks.store_lock untouched (by decide)) ?_ (fun _ _ _ => rfl)
    (fun agent page _ about => custody.ready agent page about) (custody.own_page id) rfl rfl rfl
    (by rw [stage]; rfl) ?_
  · simp only [Intents.State.set_lock, Function.update_eq_self]
  · exact .of_away rfl sound.away sound.unready

/-- The free slots of a page change that only agents of one client keep. -/
theorem Custody.bits (id : Nat) (page : Page) (custody : Custody clean layout state)
    (others : ∀ agent, agent ≠ .own id → agent ≠ .other id → ¬state.locks.Keeps agent page)
    (still : ∀ site bits, (state.clients id).stage ≠ .change site bits)
    (unclaimed : (state.clients id).stage.claims = none)
    (clients : next.clients = state.clients) (locks : next.locks = state.locks)
    (given : next.given = state.given) (ready : next.ready = state.ready)
    (free_slots : ∀ other, other ≠ page → next.free_slots other = state.free_slots other) :
    Custody clean layout next := by
  have blocks : Blocks layout next := by
    refine custody.blocks.keep ?_ ?_ ?_ ?_ given ready <;> intro other <;> rw [clients]
  refine custody.client_moves id (fun other _ => by rw [clients]) (locks ▸ custody.locks) (by rw [locks])
    (fun _ _ _ => by rw [locks]) (fun agent page _ about => ?_)
    (fun agent other away away' keeps => ?_) (fun _ set => by rwa [ready])
    (fun other _ unready => ?_) blocks (fun page about => ?_) ?_
  · rw [locks] at about
    rw [ready]
    exact custody.ready agent page about
  · refine free_slots other ?_
    rintro rfl
    exact others agent away away' keeps
  · rw [ready]
    exact (custody.stages other).unready unready
  · rw [locks] at about
    rw [clients]
    exact custody.own_page id page about
  · obtain ⟨away, in_put, target, marked, placed, -, unready, settled, -⟩ := custody.stages id
    rw [clients]
    refine ⟨?_, ?_, ?_, ?_, placed, fun site _ here => absurd here (still site _), ?_, ?_, ?_⟩
    · rwa [locks]
    · rwa [locks]
    · rwa [locks]
    · rwa [locks]
    · rwa [ready]
    · rwa [ready]
    · intro slot here
      cases unclaimed.symm.trans here

/-- `init` sets a word of the free slots. -/
theorem Custody.init_word {kind : Init} {next_word : Nat} {resume : Option (Put K V)}
    {bits : Nat → Bool} (custody : Custody clean layout state)
    (stage : (state.clients id).stage = .init kind (some next_word) resume) :
    Custody clean layout ((state.set_bits ((state.clients id).v_page layout) bits).at id
      (.init kind (some (next_word + 1)) resume)) := by
  have sound := custody.stages id
  rw [stage] at sound
  have untouched := custody.untouched id (by rw [stage]; rfl)
  have moved : Custody clean layout (state.at id (.init kind (some (next_word + 1)) resume)) := by
    refine custody.stage rfl rfl rfl rfl rfl (by rw [stage]; rfl) ?_
    exact .of_away rfl sound.away sound.unready
  refine moved.bits id ((state.clients id).v_page layout) (fun agent _ _ keeps => ?_)
    (fun site bits => ?_) (by rw [at_self]; rfl) rfl rfl rfl rfl
    (fun other away => Function.update_of_ne away ..)
  · obtain ⟨path, li_slot, holding⟩ := keeps
    exact untouched agent (by rw [show state.locks.calls agent = _ from holding]; rfl)
  · rw [at_self]
    exact nofun

/-- A client turns to a page that is not initialised. -/
theorem Custody.enter {client : Client K V} (custody : Custody clean layout state)
    (clients : next.clients = Function.update state.clients id client)
    (locks : next.locks = state.locks) (free_slots : next.free_slots = state.free_slots)
    (ready : next.ready = state.ready) (idle : state.locks.calls (.own id) = .idle)
    (kind : ∃ old_block resume, client.stage = .disown old_block resume ∨
      ∃ kind, client.stage = .init kind none resume)
    (unready : state.ready (client.v_page layout) = false) (blocks : Blocks layout next) :
    Custody clean layout next := by
  have at_id : next.clients id = client := by rw [clients, Function.update_self]
  refine custody.client_moves id (fun other away => by rw [clients, Function.update_of_ne away])
    (locks ▸ custody.locks) (by rw [locks]) (fun _ _ _ => by rw [locks])
    (fun agent page _ about => ?_) (fun _ _ _ _ _ => by rw [free_slots]) (fun _ set => by rwa [ready])
    (fun other _ before => ?_) blocks (fun page about => ?_) ?_
  · rw [locks] at about
    rw [ready]
    exact custody.ready agent page about
  · rw [ready]
    exact (custody.stages other).unready before
  · rw [locks, idle] at about
    cases about
  · rw [at_id]
    have still : next.locks.calls (.own id) = .idle := by rw [locks, idle]
    have fresh : next.ready (client.v_page layout) = false := by rw [ready, unready]
    obtain ⟨old_block, resume, stage | ⟨kind, stage⟩⟩ := kind <;> rw [stage]
    · exact ⟨fun _ => still, nofun, nofun, nofun, nofun, nofun, fun _ => fresh, nofun, nofun⟩
    · exact ⟨fun _ => still, nofun, nofun, nofun, nofun, nofun, fun _ => fresh, nofun, nofun⟩

theorem Blocks.turn {client : Client K V} (blocks : Blocks layout state)
    (block : (state.clients id).stage.has_block = true)
    (clients : next.clients = Function.update state.clients id client)
    (given : next.given = state.given) (ready : next.ready = state.ready)
    (same : client.v_block_number = (state.clients id).v_block_number)
    (page : client.v_page_number =
      ((state.clients id).v_page_number + 1) % layout.num_pages_per_block)
    (processed : client.num_v_pages_processed = (state.clients id).num_v_pages_processed + 1)
    (more : (state.clients id).num_v_pages_processed + 1 < layout.num_pages_per_block) :
    Blocks layout next := by
  have at_id : next.clients id = client := by rw [clients, Function.update_self]
  have at_other : ∀ other, other ≠ id → next.clients other = state.clients other :=
    fun other away => by rw [clients, Function.update_of_ne away]
  have old : ∀ other, (next.clients other).stage.has_block = true →
      (state.clients other).stage.has_block = true ∧
        (next.clients other).v_block_number = (state.clients other).v_block_number := by
    intro other block'
    by_cases here : other = id
    · rw [here, at_id]
      exact ⟨block, same⟩
    · rw [at_other other here] at block' ⊢
      exact ⟨block', rfl⟩
  refine ⟨fun other block' => ?_, fun one other first second number => ?_,
    fun number page inside set => ?_, fun other i block' ahead few => ?_⟩
  · obtain ⟨before, number⟩ := old other block'
    obtain ⟨member, inside⟩ := blocks.placed other before
    rw [number, given]
    refine ⟨member, ?_⟩
    by_cases here : other = id
    · rw [here, at_id, page, processed]
      exact ⟨Nat.mod_lt _ layout.pages_pos, more⟩
    · rwa [at_other other here]
  · rw [(old one first).2, (old other second).2] at number
    exact blocks.apart one other (old one first).1 (old other second).1 number
  · rw [given]
    rw [ready] at set
    exact blocks.given number page inside set
  · rw [ready]
    by_cases here : other = id
    · subst here
      rw [at_id] at few ⊢
      rw [same, page, Nat.mod_add_mod, Nat.add_assoc]
      exact blocks.ahead other (1 + i) block (by omega) (by omega)
    · rw [at_other other here] at block' few ⊢
      exact blocks.ahead other i block' ahead few

theorem Blocks.claim {client : Client K V} (blocks : Blocks layout state)
    (clients : next.clients = Function.update state.clients id client)
    (given : next.given = client.v_block_number :: state.given) (ready : next.ready = state.ready)
    (fresh : client.v_block_number ∉ state.given)
    (inside : client.v_page_number < layout.num_pages_per_block)
    (first : client.num_v_pages_processed = 0) : Blocks layout next := by
  have at_id : next.clients id = client := by rw [clients, Function.update_self]
  have at_other : ∀ other, other ≠ id → next.clients other = state.clients other :=
    fun other away => by rw [clients, Function.update_of_ne away]
  have apart : ∀ other, other ≠ id → (state.clients other).stage.has_block = true →
      (state.clients other).v_block_number ≠ client.v_block_number := by
    intro other _ block same
    exact fresh (same ▸ (blocks.placed other block).1)
  refine ⟨fun other block => ?_, fun one other first second number => ?_,
    fun number page inside set => ?_, fun other i block ahead few => ?_⟩
  · rw [given]
    by_cases here : other = id
    · rw [here, at_id]
      exact ⟨List.mem_cons_self, inside, first ▸ layout.pages_pos⟩
    · rw [at_other other here] at block ⊢
      exact (blocks.placed other block).imp_left (List.mem_cons_of_mem _)
  · by_cases here : one = id
    · by_cases there : other = id
      · rw [here, there]
      · rw [here, at_id, at_other other there] at number
        rw [at_other other there] at second
        exact absurd number.symm (apart other there second)
    · by_cases there : other = id
      · rw [there, at_id, at_other one here] at number
        rw [at_other one here] at first
        exact absurd number (apart one here first)
      · rw [at_other one here] at first number
        rw [at_other other there] at second number
        exact blocks.apart one other first second number
  · rw [given]
    rw [ready] at set
    exact List.mem_cons_of_mem _ (blocks.given number page inside set)
  · rw [ready]
    by_cases here : other = id
    · rw [here, at_id]
      by_contra set
      exact fresh (blocks.given _ _ (Nat.mod_lt _ layout.pages_pos) ((Bool.not_eq_false _).mp set))
    · rw [at_other other here] at block few ⊢
      exact blocks.ahead other i block ahead few

/-- A client goes on to the next page of its block. -/
theorem Custody.turn {put : Put K V} (custody : Custody clean layout state)
    (stage : (state.clients id).stage = .full put)
    (idle : state.locks.calls (.own id) = .idle)
    (more : (state.clients id).num_v_pages_processed + 1 < layout.num_pages_per_block) :
    Custody clean layout (state.set_client id { state.clients id with
      v_page_number := ((state.clients id).v_page_number + 1) % layout.num_pages_per_block
      num_v_pages_processed := (state.clients id).num_v_pages_processed + 1
      stage := .init .moved none (some put) }) := by
  have block : (state.clients id).stage.has_block = true := by
    rw [stage]
    rfl
  exact custody.enter rfl rfl rfl rfl idle ⟨0, some put, .inr ⟨_, rfl⟩⟩
    (custody.blocks.ahead id 1 block (by omega) (by omega))
    (custody.blocks.turn block rfl rfl rfl rfl rfl rfl more)

/-- A client gets a block. -/
theorem Custody.get_new_block {old_block : Option Nat} {resume : Option (Put K V)} {block page : Nat}
    {after : Stage K V} (custody : Custody clean layout state)
    (stage : (state.clients id).stage = .claim old_block resume)
    (fresh : block ∉ state.given) (inside : page < layout.num_pages_per_block)
    (kind : ∃ old_block resume, after = .disown old_block resume ∨
      ∃ kind, after = .init kind none resume) :
    Custody clean layout { state.set_client id ⟨block, page, 0, after⟩ with
      given := block :: state.given } := by
  have sound := custody.stages id
  rw [stage] at sound
  refine custody.enter rfl rfl rfl rfl (sound.away rfl) kind ?_
    (custody.blocks.claim rfl rfl rfl fresh inside rfl)
  by_contra set
  exact fresh (custody.blocks.given block page inside ((Bool.not_eq_false _).mp set))

/-! ### Steps of clients -/

/-- What the stages do not depend on. -/
theorem Custody.same (custody : Custody clean layout state) (clients : next.clients = state.clients)
    (locks : next.locks = state.locks) (free_slots : next.free_slots = state.free_slots)
    (given : next.given = state.given) (ready : next.ready = state.ready) :
    Custody clean layout next := by
  refine ⟨?_, ?_, ?_, ?_, ?_, fun id => ?_⟩
  · rw [locks]
    exact custody.locks
  · rw [locks]
    exact custody.unrepaired
  · rw [locks, ready]
    exact custody.ready
  · refine custody.blocks.keep ?_ ?_ ?_ ?_ given ready <;> intro id <;> rw [clients]
  · rw [locks, clients]
    exact custody.own_page
  · rw [clients]
    refine (custody.stages id).frame (by rw [locks]) (by rw [locks])
      (fun _ _ _ _ => by rw [free_slots]) (fun unready => ?_) (fun _ set => by rwa [ready])
    rw [ready]
    exact (custody.stages id).unready unready

/-- A client has loaded the free slots that it changes. -/
theorem StageSound.loaded {v_page : Page} {site : Site K V}
    (sound : StageSound state id v_page (.change site none)) :
    StageSound state id v_page
      (.change site (some (state.free_slots (site.offset v_page).page))) := by
  refine ⟨nofun, fun put => sound.in_put ?_, fun goal page here => sound.target goal page ?_,
    fun goal here => sound.marked goal ?_, fun other bits here => ?_, fun other bits here => ?_,
    nofun, fun _ => sound.settled rfl, fun slot here => sound.claims slot ?_⟩
  · cases site <;> exact put
  · cases site <;> exact here
  · cases site <;> exact here
  · cases here
    exact sound.placed site none rfl
  · cases here
    rfl
  · cases site <;> exact here

/-- A bit goes into the free slots, and the client to a stage that is no change. -/
theorem Custody.store_bits {site : Site K V} {bits bits' : Nat → Bool} (stage : Stage K V)
    (custody : Custody clean layout state)
    (before : (state.clients id).stage = .change site (some bits))
    (has_block : stage.has_block = true) (still : ∀ site bits, stage ≠ .change site bits)
    (unclaimed : stage.claims = none)
    (mine : StageSound state id ((state.clients id).v_page layout) stage) :
    Custody clean layout ((state.set_bits (site.offset ((state.clients id).v_page layout)).page bits').at
      id stage) := by
  have moved : Custody clean layout (state.at id stage) :=
    custody.stage rfl rfl rfl rfl rfl (by rw [before, has_block]; rfl) mine
  refine moved.bits id (site.offset ((state.clients id).v_page layout)).page
    (fun agent away away' keeps => ?_) (fun site bits => ?_) (by rw [at_self]; exact unclaimed)
    rfl rfl rfl rfl (fun other apart => Function.update_of_ne apart ..)
  · have sound := custody.stages id
    rw [before] at sound
    obtain ⟨keeper, mine, kept⟩ := sound.keeps
    have same := custody.locks.alone agent keeper _ (Intents.State.Keeps.holds keeps)
      (Intents.State.Keeps.holds kept)
    rcases mine with rfl | rfl
    · exact away same
    · exact away' same
  · rw [at_self]
    exact still site bits

/-- A reader begins to repair the lock of a page. -/
theorem Custody.repair {reader : Nat} {page : Page} (custody : Custody clean layout state)
    (ready : state.ready page = true)
    (stepped : state.with_locks (.repair (.reader reader) page) = some next) :
    Custody clean layout next := by
  obtain ⟨locks, possible, rfl⟩ := with_locks_some stepped
  have sound := custody.locks.step (show state.locks.Few (.repair (.reader reader) page) from trivial)
    (show state.locks.Alone (.repair (.reader reader) page) from trivial) possible
  simp only [Intents.State.step] at possible
  split at possible <;> cases possible
  have apart : ∀ agent, agent ≠ Agent.reader reader →
      (state.locks.at (.reader reader) (.repair page .finish)).calls agent =
        state.locks.calls agent := fun agent away => Function.update_of_ne away ..
  refine ⟨sound, custody.unrepaired, fun agent other about => ?_,
    custody.blocks.keep (fun _ => rfl) (fun _ => rfl) (fun _ => rfl) (fun _ => rfl) rfl rfl,
    fun client other about => ?_, fun client => ?_⟩
  · by_cases here : agent = .reader reader
    · subst here
      cases called_page about
      exact ready
    · rw [apart agent here] at about
      exact custody.ready agent other about
  · rw [apart _ (by simp)] at about
    exact custody.own_page client other about
  · exact (custody.stages client).frame (apart _ (by simp)) (apart _ (by simp)) (fun _ _ _ _ => rfl)
      (custody.stages client).unready (fun _ set => set)

theorem Custody.moves {before : Stage K V} (custody : Custody clean layout state)
    (stage : (state.clients id).stage = before) (after : Stage K V)
    (block : after.has_block = before.has_block)
    (mine : StageSound state id ((state.clients id).v_page layout) after) :
    Custody clean layout (state.at id after) := by
  rw [← stage] at block
  exact custody.stage rfl rfl rfl rfl rfl block mine

variable [DecidableEq K]

theorem Custody.store_step {site : Site K V} {bits : Nat → Bool}
    (custody : Custody clean layout state)
    (stage : (state.clients id).stage = .change site (some bits))
    (stepped : state.client_step layout id = some next) : Custody clean layout next := by
  have sound := custody.stages id
  simp only [State.client_step, stage] at stepped
  rw [stage] at sound
  cases stepped
  cases site with
  | claim put slot =>
    exact custody.store_bits (.resolve put slot) stage rfl (fun _ _ => nofun) rfl
      ⟨nofun, sound.in_put, nofun, nofun, nofun, nofun, nofun, sound.settled, nofun⟩
  | own free =>
    exact (custody.store_bits (.finish free) stage rfl (fun _ _ => nofun) rfl
      ⟨nofun, sound.in_put, nofun, nofun, nofun, nofun, nofun, sound.settled, nofun⟩).same
        rfl rfl rfl rfl rfl
  | queued free entry todo new_offsets =>
    exact (custody.store_bits (.scan free todo new_offsets) stage rfl (fun _ _ => nofun) rfl
      ⟨nofun, sound.in_put, sound.target, nofun, nofun, nofun, nofun, sound.settled, nofun⟩).same
        rfl rfl rfl rfl rfl
  | target free =>
    simp only [State.changed]
    split
    · exact (custody.store_bits (.dequeue_spin free) stage rfl (fun _ _ => nofun) rfl
        ⟨nofun, sound.in_put, nofun, sound.marked, nofun, nofun, nofun, sound.settled, nofun⟩).same
          rfl rfl rfl rfl rfl
    · exact (custody.store_bits (.finish free) stage rfl (fun _ _ => nofun) rfl
        ⟨nofun, sound.in_put, nofun, nofun, nofun, nofun, nofun, sound.settled, nofun⟩).same
          rfl rfl rfl rfl rfl

theorem Custody.acquire_step {free : Free K} (custody : Custody clean layout state)
    (stage : (state.clients id).stage = .acquire free)
    (stepped : state.client_step layout id = some next) : Custody clean layout next := by
  have sound := custody.stages id
  simp only [State.client_step, stage] at stepped
  rw [stage] at sound
  split at stepped
  · rename_i path page li_slot holding
    cases stepped
    have keeps : state.locks.Keeps (.other id) free.offset.page := by
      rw [← sound.target free.offset.page page rfl (by rw [holding]; rfl)]
      exact ⟨path, li_slot, holding⟩
    refine custody.moves stage _ rfl
      ⟨nofun, sound.in_put, nofun, fun goal here => ?_, fun site bits here => ?_,
        nofun, nofun, sound.settled, nofun⟩
    · cases here
      exact keeps
    · cases here
      trivial
  · cases stepped
    exact custody.moves stage _ rfl
      ⟨nofun, sound.in_put, sound.target, nofun, nofun, nofun, nofun, sound.settled, nofun⟩
  · cases stepped
    exact custody.moves stage _ rfl
      ⟨nofun, sound.in_put, nofun, nofun, nofun, nofun, nofun, sound.settled, nofun⟩
  · cases stepped

theorem Custody.scan_step {free : Free K} {entry : Entry} {todo new_offsets : List Entry}
    (custody : Custody clean layout state)
    (orderly : state.Orderly layout (.client id))
    (stage : (state.clients id).stage = .scan free (entry :: todo) new_offsets)
    (stepped : state.client_step layout id = some next) : Custody clean layout next := by
  have sound := custody.stages id
  simp only [State.client_step, stage] at stepped
  rw [stage] at sound
  split at stepped <;> cases stepped
  · rename_i same
    refine custody.moves stage _ rfl
      ⟨nofun, sound.in_put, sound.target, nofun, fun site bits here => ?_,
        fun site bits here => ?_, nofun, sound.settled, nofun⟩
    · cases here
      refine ⟨same, ?_⟩
      by_contra outside
      exact orderly free entry todo new_offsets stage (by simpa using outside) same
    · cases here
  · exact custody.moves stage _ rfl
      ⟨nofun, sound.in_put, sound.target, nofun, nofun, nofun, nofun, sound.settled, nofun⟩

theorem Custody.release_step {free : Free K} (custody : Custody clean layout state)
    (stage : (state.clients id).stage = .release free)
    (stepped : state.client_step layout id = some next) : Custody clean layout next := by
  have sound := custody.stages id
  simp only [State.client_step, stage] at stepped
  rw [stage] at sound
  obtain ⟨locks, possible, rfl⟩ := with_locks_some stepped
  obtain ⟨page, li_slot, lock_value, resolving, resolved⟩ := Intents.resolved_step possible
  have about : (state.locks.calls (.other id)).page = some page := by
    rw [show state.locks.calls (.other id) = _ from resolving]
    rfl
  refine custody.agent (.other id) (.acquire free) possible (fun _ _ => nofun) resolved (.inr rfl)
    (fun other same => ?_) (fun other own => nomatch own) rfl rfl rfl rfl (by rw [stage]; rfl) ?_
  · cases same
    exact custody.ready _ page about
  · subst resolved
    refine ⟨nofun, fun put => keeps_aside (by simp) (sound.in_put put),
      fun goal other here same => ?_, nofun, nofun, nofun, nofun, sound.settled, nofun⟩
    cases called_page same
    exact sound.target goal page here about

theorem Custody.client_step (custody : Custody clean layout state)
    (orderly : state.Orderly layout (.client id))
    (stepped : state.client_step layout id = some next) : Custody clean layout next := by
  have sound := custody.stages id
  have whole := stepped
  simp only [State.client_step] at stepped
  split at stepped <;> rename_i stage <;> rw [stage] at sound
  · cases stepped
  · cases stepped
  · cases stepped
  · cases stepped
  · -- disown
    rename_i old_block resume
    exact (custody.moves stage (.init .claimed none resume) rfl
      (.of_away rfl sound.away sound.unready)).owned
        ⟨_, .inr rfl⟩ stepped
  · -- init stores the lock
    cases stepped
    exact custody.init_lock stage
  · -- init sets a word, or is done
    rename_i kind next_word resume
    split at stepped
    · cases stepped
      exact custody.init_word stage
    · split at stepped
      · cases stepped
        exact custody.moves stage _ rfl (.of_away rfl sound.away sound.unready)
      · rename_i put _
        have ready := custody.initialised id (by rw [stage]; rfl)
        refine ready.begin_put (by rw [at_self]) ((begin_put_at _ put).trans stepped)
      · cases stepped
  · -- own
    exact (custody.initialised id (by rw [stage]; rfl)).owned ⟨_, .inl rfl⟩ stepped
  · -- own
    rename_i put
    exact (custody.moves stage (.init .repeated none (some put)) rfl
      (.of_away rfl sound.away sound.unready)).owned
        ⟨_, .inl rfl⟩ stepped
  · -- lock
    split at stepped
    · rename_i path page li_slot holding
      have keeps : state.locks.Keeps (.own id) ((state.clients id).v_page layout) := by
        rw [← custody.own_page id page (by rw [holding]; rfl)]
        exact ⟨path, li_slot, holding⟩
      split at stepped <;> cases stepped
      · rename_i free_slot_idx found
        refine custody.moves stage _ rfl
          ⟨nofun, fun _ => keeps, nofun, nofun, nofun, nofun, nofun, sound.settled, fun slot here => ?_⟩
        cases here
        exact List.find?_some found
      · exact custody.moves stage _ rfl
          ⟨nofun, nofun, nofun, nofun, nofun, nofun, nofun, sound.settled, nofun⟩
    · cases stepped
  · -- full
    split at stepped
    · refine custody.unlocks (.inl ⟨rfl, ?_⟩) ?_ ?_ ?_ ?_ ?_ stepped <;> rw [stage]
      all_goals first | rfl | exact fun _ _ => nofun
    · rename_i idle
      split at stepped <;> cases stepped
      · exact custody.moves stage _ rfl
          ⟨fun _ => idle, nofun, nofun, nofun, nofun, nofun, nofun, nofun, nofun⟩
      · rename_i more
        have processed := (custody.blocks.placed id (by rw [stage]; rfl)).2.2
        exact custody.turn stage idle (by omega)
    · cases stepped
  · -- write the key
    cases stepped
    exact custody.stage rfl rfl rfl rfl rfl (by rw [stage]; rfl)
      ⟨nofun, sound.in_put, nofun, nofun, nofun, nofun, nofun, sound.settled, sound.claims⟩
  · -- write the value
    cases stepped
    refine custody.stage rfl rfl rfl rfl rfl (by rw [stage]; rfl)
      ⟨nofun, sound.in_put, nofun, nofun, fun site bits here => ?_, nofun, nofun, sound.settled,
        sound.claims⟩
    cases here
    trivial
  · -- load the free slots
    cases stepped
    exact custody.moves stage _ rfl sound.loaded
  · exact custody.store_step stage whole
  · exact custody.acquire_step stage whole
  · -- spin
    split at stepped <;> cases stepped
    exact custody.stage rfl rfl rfl rfl rfl (by rw [stage]; rfl)
      ⟨nofun, sound.in_put, sound.target, nofun, nofun, nofun, nofun, sound.settled, nofun⟩
  · exact custody.scan_step orderly stage whole
  · -- the scan is done
    cases stepped
    exact custody.stage rfl rfl rfl rfl rfl (by rw [stage]; rfl)
      ⟨nofun, sound.in_put, sound.target, nofun, nofun, nofun, nofun, sound.settled, nofun⟩
  · exact custody.release_step stage whole
  · -- dequeue
    split at stepped <;> cases stepped
    exact custody.stage rfl rfl rfl rfl rfl (by rw [stage]; rfl)
      ⟨nofun, sound.in_put, nofun, sound.marked, nofun, nofun, nofun, sound.settled, nofun⟩
  · cases stepped
    exact custody.stage rfl rfl rfl rfl rfl (by rw [stage]; rfl)
      ⟨nofun, sound.in_put, nofun, sound.marked, nofun, nofun, nofun, sound.settled, nofun⟩
  · cases stepped
    exact custody.stage rfl rfl rfl rfl rfl (by rw [stage]; rfl)
      ⟨nofun, sound.in_put, nofun, nofun, nofun, nofun, nofun, sound.settled, nofun⟩
  · -- finish
    split at stepped
    · refine custody.unlocks (.inr rfl) ?_ ?_ ?_ ?_ ?_ stepped <;> rw [stage]
      all_goals first | rfl | exact fun _ _ => nofun
    · cases stepped
      exact custody.moves stage _ rfl
        ⟨nofun, nofun, nofun, nofun, nofun, nofun, nofun, sound.settled, nofun⟩
    · cases stepped
      exact custody.moves stage _ rfl
        ⟨nofun, nofun, nofun, nofun, nofun, nofun, nofun, sound.settled, nofun⟩
    · cases stepped
  · -- unlock
    split at stepped
    · refine custody.unlocks (.inl ⟨rfl, ?_⟩) ?_ ?_ ?_ ?_ ?_ stepped <;> rw [stage]
      all_goals first | rfl | exact fun _ _ => nofun
    · cases stepped
      exact custody.stage rfl rfl rfl rfl rfl (by rw [stage]; rfl)
        ⟨nofun, nofun, nofun, nofun, nofun, nofun, nofun, sound.settled, nofun⟩
    · cases stepped
  · -- update
    rename_i offset key value
    split at stepped
    · rename_i path page li_slot holding
      have keeps : state.locks.Keeps (.other id) offset.page := by
        rw [← sound.target offset.page page rfl (by rw [holding]; rfl)]
        exact ⟨path, li_slot, holding⟩
      split at stepped <;> cases stepped
      · exact custody.moves stage _ rfl
          ⟨nofun, nofun, nofun, nofun, nofun, nofun, nofun, sound.settled, nofun⟩
      · refine custody.moves stage _ rfl
          ⟨nofun, nofun, nofun, fun goal here => ?_, nofun, nofun, nofun, sound.settled, nofun⟩
        cases here
        exact keeps
    · cases stepped
      exact custody.moves stage _ rfl
        ⟨nofun, nofun, nofun, nofun, nofun, nofun, nofun, sound.settled, nofun⟩
    · cases stepped
  · -- store
    cases stepped
    exact custody.stage rfl rfl rfl rfl rfl (by rw [stage]; rfl)
      ⟨nofun, nofun, nofun, nofun, nofun, nofun, nofun, sound.settled, nofun⟩
  · -- leave
    split at stepped
    · refine custody.unlocks (.inr rfl) ?_ ?_ ?_ ?_ ?_ stepped <;> rw [stage]
      all_goals first | rfl | exact fun _ _ => nofun
    · cases stepped
      exact custody.moves stage _ rfl
        ⟨nofun, nofun, nofun, nofun, nofun, nofun, nofun, sound.settled, nofun⟩
    · cases stepped

theorem Custody.step {action : Action K V} (custody : Custody clean layout state)
    (orderly : state.Orderly layout action) (alone : state.Alone action)
    (stepped : state.step layout action = some next) : Custody clean layout next := by
  cases action with
  | client id => exact custody.client_step orderly stepped
  | agent agent spurious => exact custody.call orderly alone stepped
  | get_client id =>
    simp only [State.step] at stepped
    split at stepped <;> cases stepped
    rename_i stage
    have sound := custody.stages id
    rw [stage] at sound
    exact custody.stage rfl rfl rfl rfl rfl (by rw [stage]; rfl)
      ⟨sound.away, nofun, nofun, nofun, nofun, nofun, nofun, nofun, nofun⟩
  | get_new_block id block page =>
    simp only [State.step] at stepped
    split at stepped
    · rename_i old_block resume stage
      split at stepped <;> cases stepped
      rename_i fresh
      refine custody.get_new_block stage fresh.1 fresh.2 ?_
      cases old_block with
      | none => exact ⟨0, resume, .inr ⟨_, rfl⟩⟩
      | some old_block => exact ⟨old_block, resume, .inl rfl⟩
    · cases stepped
  | put id key value =>
    simp only [State.step] at stepped
    split at stepped
    · rename_i idle
      have kept : Custody clean layout { state with keys := key :: state.keys } :=
        custody.same rfl rfl rfl rfl rfl
      exact kept.begin_put idle stepped
    · cases stepped
  | update id offset key value =>
    simp only [State.step] at stepped
    split at stepped
    · rename_i idle
      have sound := custody.stages id
      rw [idle] at sound
      split at stepped
      · rename_i ready
        obtain ⟨locks, possible, rfl⟩ := with_locks_some stepped
        obtain ⟨free, locked⟩ := Intents.lock_step possible
        refine custody.agent (.other id) (.update offset key value) possible (fun _ _ => nofun) locked
          (.inr rfl) (fun page about => ?_) (fun page own => nomatch own) rfl rfl rfl rfl
          (by rw [idle]; rfl) ?_
        · cases about
          exact ready
        · subst locked
          refine ⟨nofun, nofun, fun goal page here about => ?_, nofun, nofun, nofun, nofun,
            sound.settled, nofun⟩
          cases here
          cases called_page about
          rfl
      · cases stepped
    · cases stepped
  | remove id offset key =>
    simp only [State.step] at stepped
    split at stepped
    · rename_i idle
      split at stepped
      · rename_i ready
        exact custody.begin_free ⟨key, offset, none, false, false⟩ (by rw [idle]; rfl) nofun
          (fun _ => orderly) ready stepped
      · cases stepped
    · cases stepped
  | old_offset id old_offset =>
    simp only [State.step] at stepped
    split at stepped
    · rename_i put slot offset stage
      have sound := custody.stages id
      rw [stage] at sound
      split at stepped
      · rename_i ready
        exact custody.begin_free ⟨put.key, offset, some slot, false, false⟩ (by rw [stage]; rfl)
          (fun _ => sound.in_put rfl) nofun ready stepped
      · cases stepped
    · rename_i stage
      have sound := custody.stages id
      rw [stage] at sound
      cases stepped
      exact custody.stage rfl rfl rfl rfl rfl (by rw [stage]; rfl)
        ⟨nofun, nofun, nofun, nofun, nofun, nofun, nofun, sound.settled, nofun⟩
    · cases stepped
  | repair reader page =>
    simp only [State.step] at stepped
    split at stepped
    · rename_i ready
      exact custody.repair ready stepped
    · cases stepped

omit [DecidableEq K] in
theorem Custody.opened (opened : state.Opened layout)
    (unlocked : ∀ page, clean page → (state.locks.version_lock page).is_locked = false) :
    Custody clean layout state := by
  have idle : ∀ agent, state.locks.calls agent = .idle := opened.opened.calls
  have uncalled : ∀ agent page, (state.locks.calls agent).page ≠ some page := by
    intro agent page about
    rw [idle agent] at about
    cases about
  have outside : ∀ id, (state.clients id).stage.has_block = false := by
    intro id
    rw [opened.clients id]
    rfl
  refine ⟨.opened opened.opened unlocked, fun page _ => ?_,
    fun agent page about => absurd about (uncalled agent page), ⟨fun id block => ?_,
      fun id _ block => ?_, opened.ready, fun id _ block => ?_⟩,
    fun id page about => absurd about (uncalled _ page), fun id => ?_⟩
  · rw [opened.opened.seen page]
  · rw [outside id] at block
    cases block
  · rw [outside id] at block
    cases block
  · rw [outside id] at block
    cases block
  · rw [opened.clients id]
    exact ⟨fun _ => idle _, nofun, nofun, nofun, nofun, nofun, nofun, nofun, nofun⟩

omit [DecidableEq K] in
/-- A pool is opened when it has been created, without a stale lock. -/
theorem State.Created.opens (created : state.Created) : state.Opened layout where
  opened := created.opened
  deadlock_offsets := created.deadlock_offsets
  deadlock_offset_lock := created.deadlock_offset_lock
  clients := created.clients
  ready block page _ set := by
    rw [created.ready] at set
    cases set

omit [DecidableEq K] in
theorem Custody.alone {action : Action K V} (custody : Custody (fun _ => True) layout state)
    (orderly : state.Orderly layout action) : state.Alone action := by
  cases action with
  | agent agent spurious =>
    have few : state.locks.Few (.call agent spurious) := orderly
    intro page seen repairing
    exact absurd repairing
      (custody.locks.never_repairs trivial (custody.unrepaired page trivial) few seen)
  | _ => trivial

theorem Custody.reached (reached : (machine layout K V).Reach (State.Orderly layout) state) :
    Custody (fun _ => True) layout state := by
  apply reached.invariant
  · intro state created
    apply Custody.opened created.opens
    intro page _
    rw [created.version_lock page]
    rfl
  · intro state action next custody orderly stepped
    exact custody.step orderly (custody.alone orderly) stepped

/-- Whatever locks a kill has left behind. -/
theorem Custody.reopened
    (reached : (opened_machine layout K V).Reach
      (fun state action => state.Orderly layout action ∧ state.Alone action) state) :
    Custody (fun _ => False) layout state := by
  apply reached.invariant
  · intro state opened
    exact Custody.opened opened (fun _ never => never.elim)
  · intro state action next custody meets stepped
    exact custody.step meets.1 meets.2 stepped

omit [DecidableEq K] in
theorem changed_free_slots (state : State K V) (id : Nat) (site : Site K V) :
    (state.changed id site).free_slots = state.free_slots := by
  cases site <;> rfl

theorem store_bit_self (bits : Nat → Bool) (slot : Nat) (bit : Bool) :
    store_bit bits bits slot bit = Function.update bits slot bit := by
  funext other
  simp only [store_bit, Function.update_apply]
  split
  · rfl
  · rename_i apart
    rw [if_neg]
    rintro rfl
    exact apart rfl

/-- Whoever changes a bit of the free slots of a page holds the lock of the page,
and changes no other bit. -/
theorem free_slots_locked
    (reached : (opened_machine layout K V).Reach
      (fun state action => state.Orderly layout action ∧ state.Alone action) state)
    {site : Site K V} {bits : Option (Nat → Bool)}
    (changing : (state.clients id).stage = .change site bits) :
    let offset := site.offset ((state.clients id).v_page layout)
    (∃ agent, (agent = .own id ∨ agent = .other id) ∧ state.locks.Holds agent offset.page) ∧
      ∀ loaded next, bits = some loaded → state.client_step layout id = some next →
        next.free_slots offset.page =
          Function.update (state.free_slots offset.page) offset.data_offset site.bit := by
  intro offset
  have sound := (Custody.reopened reached).stages id
  rw [changing] at sound
  constructor
  · obtain ⟨agent, mine, keeps⟩ := sound.keeps
    exact ⟨agent, mine, keeps.holds⟩
  · rintro loaded next rfl stepped
    have current := sound.bits site loaded rfl
    simp only [State.client_step, changing] at stepped
    cases stepped
    rw [changed_free_slots, current]
    exact (Function.update_self ..).trans (store_bit_self _ _ _)

/-! ### A `remove` on the page of its own client -/

def State.orderly (layout : Layout) (state : State K V) : Action K V → Bool
  | .agent agent spurious => state.locks.few (.call agent spurious)
  | .remove id offset _ => offset.page ≠ (state.clients id).v_page layout
  | .client id =>
      match (state.clients id).stage with
      | .scan free (entry :: _) _ =>
          free.put.isSome || entry.offset.page ≠ (state.clients id).v_page layout
      | _ => true
  | _ => true

omit [DecidableEq K] in
theorem Orderly.of_orderly {action : Action K V} (orderly : state.orderly layout action = true) :
    state.Orderly layout action := by
  cases action with
  | agent agent spurious =>
    have few : state.locks.few (.call agent spurious) = true := orderly
    exact Intents.Few.of_few few
  | remove id offset key =>
    have elsewhere : decide (offset.page ≠ (state.clients id).v_page layout) = true := orderly
    simpa only [State.Orderly] using of_decide_eq_true elsewhere
  | client id =>
    intro free entry todo new_offsets stage remove
    simpa [State.orderly, stage, remove] using orderly
  | _ => trivial

theorem small_pos : 0 < 2 := by
  decide

def small : Layout where
  num_pages_per_block := 2
  num_slots_per_page := 2
  page := fun block page => ⟨4096 * (2 * block + page + 1), by omega⟩
  pages_pos := small_pos
  slots_pos := small_pos
  apart := by
    intro block block' page page' low low' same
    have addresses := congrArg Page.address same
    simp only at addresses
    omega

def created : State Nat Nat where
  locks := ⟨fun _ => 0#8, fun _ => 0, fun _ => .idle, fun _ => ⟨0, 0⟩⟩
  free_slots := fun _ _ => false
  data := fun _ => (0, 0)
  deadlock_offsets := []
  deadlock_offset_lock := false
  clients := fun _ => ⟨0, 0, 0, .new⟩
  given := []
  ready := fun _ => false
  keys := []
  live := fun _ => none
  returned := fun _ => false
  marks := fun _ => 0

theorem created_created : created.Created :=
  ⟨⟨fun _ => rfl, fun _ => rfl, fun _ => rfl⟩, fun _ => rfl, fun _ _ => rfl, rfl, rfl,
    fun _ => rfl, rfl, fun _ => rfl, rfl, fun _ => rfl, fun _ => rfl⟩

def joins (id block : Nat) : List (Action Nat Nat) :=
  [.get_client id, .get_new_block id block 0, .client id, .client id, .client id, .client id]

def locks (agent : Agent) : List (Action Nat Nat) := List.replicate 3 (.agent agent false)

def writes (id key value : Nat) : List (Action Nat Nat) :=
  .put id key value :: locks (.own id) ++ List.replicate 5 (.client id)

def returns (id : Nat) : List (Action Nat Nat) :=
  [.client id, .agent (.own id) false, .agent (.own id) false, .client id]

/-- Client 1 overwrites the record in slot 1 of the page of client 0, and has
loaded the free slots of that page under its lock. -/
def overwrite : List (Action Nat Nat) :=
  joins 0 0 ++ writes 0 7 70 ++ [.old_offset 0 none] ++ returns 0 ++
    writes 0 8 80 ++ [.old_offset 0 none] ++ returns 0 ++
    joins 1 1 ++ writes 1 8 81 ++ [.old_offset 1 (some ⟨small.page 0 0, 1⟩)] ++
    locks (.other 1) ++ [.client 1, .client 1]

def State.alone (state : State K V) : Action K V → Bool
  | .agent agent _ =>
      match state.locks.calls agent with
      | .rescan page _ _ seen _ => (state.locks.seen page).repairs = seen.repairs
      | _ => true
  | _ => true

omit [DecidableEq K] in
theorem Alone.of_alone {action : Action K V} (alone : state.alone action = true) :
    state.Alone action := by
  cases action with
  | agent agent spurious =>
    rintro page seen ⟨after, lv, i, stage, -⟩
    simpa [State.alone, stage] using alone
  | _ => trivial

/-- Block 0 is in use. Its second page holds the records 7 and 8, and a lock that
a kill has left behind. -/
def left_behind : State Nat Nat :=
  { created with
    locks := { created.locks with
      version_lock := fun page => if page = small.page 0 1 then USED_BIT ||| 1#8 else 0#8 }
    data := fun offset => if offset = ⟨small.page 0 1, 0⟩ then (7, 70) else (8, 80)
    given := [0]
    ready := fun page => page = small.page 0 1 }

theorem left_behind_opened : left_behind.Opened small where
  opened := ⟨fun _ => rfl, fun _ => rfl, fun _ => rfl⟩
  deadlock_offsets := rfl
  deadlock_offset_lock := rfl
  clients := fun _ => rfl
  ready := by
    intro block page inside ready
    have same : small.page block page = small.page 0 1 := by simpa [left_behind] using ready
    rw [(small.apart block 0 page 1 inside (by decide) same).1]
    exact List.mem_singleton_self 0

/-- Client 1 overwrites the record 8: it repairs the lock of its page, and has
loaded the free slots under it. -/
def overwrite_stale : List (Action Nat Nat) :=
  joins 1 1 ++ writes 1 8 81 ++ [.old_offset 1 (some ⟨small.page 0 1, 1⟩)] ++
    List.replicate 34 (.agent (.other 1) false) ++ List.replicate 5 (.client 1) ++
    List.replicate 263 (.agent (.other 1) false) ++ [.client 1, .client 1]

def ends {α : Type} (machine : Machine (State Nat Nat) (Action Nat Nat))
    (actions : List (Action Nat Nat)) (view : State Nat Nat → α) : Option α :=
  (machine.run created actions).map view

def Stage.changing : Stage K V → Option (Page × Bool)
  | .change (.own free) (some _) => some (free.offset.page, false)
  | .change (.target free) (some _) => some (free.offset.page, true)
  | _ => none

omit [DecidableEq K] in
theorem Stage.changing_some {stage : Stage K V} {page : Page} {target : Bool}
    (here : stage.changing = some (page, target)) :
    ∃ free bits, stage = .change (if target then .target free else .own free) (some bits) ∧
      free.offset.page = page := by
  unfold Stage.changing at here
  split at here <;> cases here
  · exact ⟨_, _, rfl, rfl⟩
  · exact ⟨_, _, rfl, rfl⟩

theorem free_slots_locked_overwrite :
    ∃ state free bits, (opened_machine small Nat Nat).Reach
        (fun state action => state.Orderly small action ∧ state.Alone action) state ∧
      (state.clients 1).stage = .change (.target free) (some bits) ∧
      ∃ agent, (agent = .own 1 ∨ agent = .other 1) ∧ state.locks.Holds agent free.offset.page := by
  have changing : (((opened_machine small Nat Nat).checked
      (fun state action => state.orderly small action && state.alone action)).run left_behind
        overwrite_stale).map (fun state => (state.clients 1).stage.changing) =
          some (some (small.page 0 1, true)) := by
    decide +kernel
  obtain ⟨state, ran, here⟩ := Option.map_eq_some_iff.mp changing
  obtain ⟨free, bits, stage, -⟩ := Stage.changing_some here
  have reached : (opened_machine small Nat Nat).Reach
      (fun state action => state.Orderly small action ∧ state.Alone action) state := by
    apply Machine.Reach.run_checked (.start left_behind_opened) _ ran
    intro state action passed
    obtain ⟨orderly, alone⟩ := Bool.and_eq_true_iff.mp passed
    exact ⟨Orderly.of_orderly orderly, Alone.of_alone alone⟩
  exact ⟨state, free, bits, reached, stage, (free_slots_locked reached stage).1⟩

/-- Client 0 removes the record in slot 0 of its page, and client 1 stores the
free slots before client 0 does. -/
def remove_race : List (Action Nat Nat) :=
  overwrite ++ [.remove 0 ⟨small.page 0 0, 0⟩ 7, .client 0, .client 1]

theorem remove_race_loses :
    ∃ state next free bits, (machine small Nat Nat).Reachable state ∧
      (state.clients 0).stage = .change (.own free) (some bits) ∧
      (∀ agent, agent = .own 0 ∨ agent = .other 0 →
        ¬state.locks.Holds agent free.offset.page) ∧
      state.step small (.client 0) = some next ∧
      state.free_slots free.offset.page 1 = true ∧ next.free_slots free.offset.page 1 = false := by
  have before : ends (machine small Nat Nat) remove_race
      (fun state => ((state.clients 0).stage.changing, state.locks.calls (.own 0),
        state.locks.calls (.other 0), state.free_slots (small.page 0 0) 1)) =
      some (some (small.page 0 0, false), .idle, .idle, true) := by
    decide +kernel
  have after : ends (machine small Nat Nat) (remove_race ++ [.client 0])
      (fun state => state.free_slots (small.page 0 0) 1) = some false := by
    decide +kernel
  obtain ⟨state, ran, here⟩ := Option.map_eq_some_iff.mp before
  obtain ⟨next, ran_on, lost⟩ := Option.map_eq_some_iff.mp after
  simp only [Prod.mk.injEq] at here
  obtain ⟨changing, own, other, marked⟩ := here
  obtain ⟨free, bits, stage, page⟩ := Stage.changing_some changing
  have stepped : state.step small (.client 0) = some next := by
    rw [Machine.run_append, ran] at ran_on
    simp only [Option.bind_some, Machine.run] at ran_on
    split at ran_on
    · rename_i middle moved
      cases ran_on
      exact moved
    · cases ran_on
  refine ⟨state, next, free, bits, .run (.start created_created) ran, stage, ?_, stepped,
    page ▸ marked, page ▸ lost⟩
  rintro agent (rfl | rfl) ⟨li_slot, held⟩
  · rw [own] at held
    cases held
  · rw [other] at held
    cases held

end Hiom.Viper.Pages
