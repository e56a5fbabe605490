import Hiom.Viper.Custody

/-!
What a scan of the pages finds after a kill: the records that puts have written
whole and nobody has freed, unless a client was initialising a page for the
first time.
-/

namespace Hiom.Viper.Pages

open Intents (Page)

variable {K V : Type} {layout : Layout} {clean : Page → Prop} {state next : State K V} {id : Nat}

def Stage.fresh : Stage K V → Bool
  | .disown .. | .init .claimed none _ | .init .moved none _ => true
  | _ => false

def Stage.filling : Stage K V → Option Nat
  | .init .claimed next_word _ | .init .moved next_word _ => next_word
  | _ => none

def Stage.blank : Stage K V → Bool
  | .own .. | .init .repeated .. => true
  | _ => false

def Stage.put : Stage K V → Option (Put K V)
  | .claim _ resume | .disown _ resume | .init _ _ resume | .own resume => resume
  | .lock put | .full put | .write put .. | .change (.claim put _) _ | .resolve put _ => some put
  | _ => none

/-- The client is in the first `init` of a page, which is in use but has words
that are not set. -/
def State.Initialising (layout : Layout) (state : State K V) (id : Nat) : Prop :=
  ∃ next_word, (state.clients id).stage.filling = some next_word ∧ next_word < layout.words

structure StageFilled (layout : Layout) (state : State K V) (v_page : Page) (stage : Stage K V) :
    Prop where
  fresh : stage.fresh = true → (state.locks.version_lock v_page).is_used = false ∧
    ∀ slot, state.free_slots v_page slot = false
  filling : ∀ next_word, stage.filling = some next_word →
    (state.locks.version_lock v_page).is_used = true ∧
      ∀ slot, state.free_slots v_page slot = decide (slot / 64 < next_word)
  blank : stage.blank = true → ∀ slot, slot < layout.num_slots_per_page →
    state.free_slots v_page slot = true
  claims : ∀ slot, stage.claims = some slot →
    slot < layout.num_slots_per_page ∧ state.free_slots v_page slot = true
  key : ∀ put slot, stage = .write put slot true → (state.data ⟨v_page, slot⟩).1 = put.key
  whole : ∀ put slot bits, stage = .change (.claim put slot) bits →
    state.live ⟨v_page, slot⟩ = some (state.data ⟨v_page, slot⟩)
  keys : ∀ put, stage.put = some put → put.key ∈ state.keys

/-- The slots that are taken on pages that are ready hold whole records, and the
other pages hold none. -/
structure Filled (layout : Layout) (state : State K V) : Prop where
  records : ∀ offset, state.ready offset.page = true →
    offset.data_offset < layout.num_slots_per_page →
      state.free_slots offset.page offset.data_offset = false →
        state.live offset = some (state.data offset)
  unused : ∀ page, state.ready page = false →
    (∀ id, (state.clients id).stage.unready = true → (state.clients id).v_page layout ≠ page) →
      (state.locks.version_lock page).is_used = false ∧ ∀ slot, state.free_slots page slot = false
  dead : ∀ offset, state.ready offset.page = false → state.live offset = none
  keys : ∀ offset record, state.live offset = some record → record.1 ∈ state.keys
  stages : ∀ id,
    StageFilled layout state ((state.clients id).v_page layout) (state.clients id).stage

theorem unready_of_page {stage : Stage K V}
    (kind : stage.fresh = true ∨ (∃ word, stage.filling = some word) ∨ stage.blank = true) :
    stage.unready = true := by
  unfold Stage.fresh Stage.filling Stage.blank at kind
  cases stage <;> first | rfl | simp at kind

theorem claims_of_write {stage : Stage K V} (unclaimed : stage.claims = none) :
    (∀ put slot, stage ≠ .write put slot true) ∧
      ∀ put slot bits, stage ≠ .change (.claim put slot) bits := by
  constructor
  · intro put slot here
    rw [here] at unclaimed
    cases unclaimed
  · intro put slot bits here
    rw [here] at unclaimed
    cases unclaimed

/-- A client that has no page in hand that is not ready, and no slot. -/
theorem StageFilled.of_settled {v_page : Page} {stage : Stage K V}
    (ready : stage.unready = false) (unclaimed : stage.claims = none)
    (keys : ∀ put, stage.put = some put → put.key ∈ state.keys) :
    StageFilled layout state v_page stage where
  fresh here := by
    have unready := unready_of_page (.inl here)
    cases unready.symm.trans ready
  filling word here := by
    have unready := unready_of_page (.inr (.inl ⟨word, here⟩))
    cases unready.symm.trans ready
  blank here := by
    have unready := unready_of_page (.inr (.inr here))
    cases unready.symm.trans ready
  claims slot here := by
    cases here.symm.trans unclaimed
  key put slot here := absurd here ((claims_of_write unclaimed).1 put slot)
  whole put slot bits here := absurd here ((claims_of_write unclaimed).2 put slot bits)
  keys := keys

/-- A client that is in no put either. -/
theorem StageFilled.of_apart {v_page : Page} {stage : Stage K V} (ready : stage.unready = false)
    (unclaimed : stage.claims = none) (apart : stage.put = none) :
    StageFilled layout state v_page stage := by
  apply StageFilled.of_settled ready unclaimed
  intro put here
  cases here.symm.trans apart

/-! ### What a step leaves alone -/

structure Untouched (state next : State K V) (page : Page) : Prop where
  free_slots : next.free_slots page = state.free_slots page
  data : ∀ slot, next.data ⟨page, slot⟩ = state.data ⟨page, slot⟩
  live : ∀ slot, next.live ⟨page, slot⟩ = state.live ⟨page, slot⟩

theorem StageFilled.frame {v_page : Page} {stage : Stage K V}
    (filled : StageFilled layout state v_page stage)
    (used : stage.unready = true → (next.locks.version_lock v_page).is_used =
      (state.locks.version_lock v_page).is_used)
    (untouched : stage.unready = true ∨ stage.in_put = true → Untouched state next v_page)
    (keys : ∀ key, key ∈ state.keys → key ∈ next.keys) :
    StageFilled layout next v_page stage := by
  refine ⟨fun here => ?_, fun word here => ?_, fun here => ?_, fun slot here => ?_,
    fun put slot here => ?_, fun put slot bits here => ?_,
    fun put here => keys _ (filled.keys put here)⟩
  · have unready := unready_of_page (.inl here)
    rw [used unready, (untouched (.inl unready)).free_slots]
    exact filled.fresh here
  · have unready := unready_of_page (.inr (.inl ⟨word, here⟩))
    rw [used unready, (untouched (.inl unready)).free_slots]
    exact filled.filling word here
  · have unready := unready_of_page (.inr (.inr here))
    rw [(untouched (.inl unready)).free_slots]
    exact filled.blank here
  · rw [(untouched (.inr (in_put_of_claims here))).free_slots]
    exact filled.claims slot here
  · have in_put : stage.in_put = true := by rw [here]; rfl
    rw [(untouched (.inr in_put)).data]
    exact filled.key put slot here
  · have in_put : stage.in_put = true := by rw [here]; rfl
    rw [(untouched (.inr in_put)).data, (untouched (.inr in_put)).live]
    exact filled.whole put slot bits here

/-- A step of a client that changes neither records nor free slots. -/
theorem Filled.quiet {stage : Stage K V} (filled : Filled layout state)
    (clients : next.clients = Function.update state.clients id
      { state.clients id with stage := stage })
    (used : ∀ page, state.ready page = false → (next.locks.version_lock page).is_used =
      (state.locks.version_lock page).is_used)
    (free_slots : next.free_slots = state.free_slots) (data : next.data = state.data)
    (live : next.live = state.live) (ready : next.ready = state.ready)
    (keys : next.keys = state.keys) (custody : Custody clean layout state)
    (unready : stage.unready = (state.clients id).stage.unready)
    (mine : StageFilled layout state ((state.clients id).v_page layout) stage) :
    Filled layout next := by
  have at_id : next.clients id = { state.clients id with stage := stage } := by
    rw [clients, Function.update_self]
  have at_other : ∀ other, other ≠ id → next.clients other = state.clients other :=
    fun other away => by rw [clients, Function.update_of_ne away]
  have untouched : ∀ page, Untouched state next page :=
    fun page => ⟨by rw [free_slots], fun _ => by rw [data], fun _ => by rw [live]⟩
  have kept : ∀ key, key ∈ state.keys → key ∈ next.keys := fun key member => by rwa [keys]
  refine ⟨?_, fun page unset apart => ?_, ?_, ?_, fun other => ?_⟩
  · rw [ready, free_slots, live, data]
    exact filled.records
  · rw [ready] at unset
    rw [used page unset, free_slots]
    refine filled.unused page unset (fun other before => ?_)
    have away := apart other
    by_cases here : other = id
    · subst here
      rw [at_id] at away
      exact away (unready.trans before)
    · rw [at_other other here] at away
      exact away before
  · rw [ready, live]
    exact filled.dead
  · rw [live, keys]
    exact filled.keys
  · by_cases here : other = id
    · subst here
      rw [at_id]
      refine mine.frame (fun before => used _ ?_) (fun _ => untouched _) kept
      exact (custody.stages other).unready (unready.symm.trans before)
    · rw [at_other other here]
      exact (filled.stages other).frame
        (fun before => used _ ((custody.stages other).unready before)) (fun _ => untouched _) kept

/-- A step of a client on a page whose lock it has. -/
theorem Filled.locked {stage : Stage K V} {agent : Agent} {page : Page}
    (filled : Filled layout state) (custody : Custody clean layout state)
    (mine : agent = .own id ∨ agent = .other id) (keeps : state.locks.Keeps agent page)
    (clients : next.clients = Function.update state.clients id
      { state.clients id with stage := stage })
    (locks : next.locks = state.locks) (ready : next.ready = state.ready)
    (keys : next.keys = state.keys) (elsewhere : ∀ other, other ≠ page → Untouched state next other)
    (before : (state.clients id).stage.unready = false)
    (records : ∀ slot, slot < layout.num_slots_per_page → next.free_slots page slot = false →
      next.live ⟨page, slot⟩ = some (next.data ⟨page, slot⟩))
    (written : ∀ slot record, next.live ⟨page, slot⟩ = some record → record.1 ∈ state.keys)
    (sound : StageFilled layout next ((state.clients id).v_page layout) stage) :
    Filled layout next := by
  have at_id : next.clients id = { state.clients id with stage := stage } := by
    rw [clients, Function.update_self]
  have at_other : ∀ other, other ≠ id → next.clients other = state.clients other :=
    fun other away => by rw [clients, Function.update_of_ne away]
  have page_ready : state.ready page = true := by
    obtain ⟨path, li_slot, holding⟩ := keeps
    exact custody.ready agent page (by rw [holding]; rfl)
  refine ⟨fun offset set inside taken => ?_, fun other unset apart => ?_, fun offset unset => ?_,
    fun offset record wrote => ?_, fun other => ?_⟩
  · obtain ⟨at_page, slot⟩ := offset
    by_cases here : at_page = page
    · subst here
      exact records slot inside taken
    · have untouched := elsewhere at_page here
      rw [ready] at set
      rw [untouched.free_slots] at taken
      rw [untouched.live, untouched.data]
      exact filled.records ⟨at_page, slot⟩ set inside taken
  · rw [ready] at unset
    have here : other ≠ page := by
      rintro rfl
      cases page_ready.symm.trans unset
    rw [locks, (elsewhere other here).free_slots]
    refine filled.unused other unset (fun client unready => ?_)
    have away := apart client
    by_cases acting : client = id
    · rw [acting, before] at unready
      cases unready
    · rw [at_other client acting] at away
      exact away unready
  · obtain ⟨at_page, slot⟩ := offset
    rw [ready] at unset
    have here : at_page ≠ page := by
      rintro rfl
      cases page_ready.symm.trans unset
    rw [(elsewhere at_page here).live]
    exact filled.dead ⟨at_page, slot⟩ unset
  · obtain ⟨at_page, slot⟩ := offset
    rw [keys]
    by_cases here : at_page = page
    · subst here
      exact written slot record wrote
    · rw [(elsewhere at_page here).live] at wrote
      exact filled.keys ⟨at_page, slot⟩ record wrote
  · by_cases acting : other = id
    · rw [acting, at_id]
      exact sound
    · rw [at_other other acting]
      refine (filled.stages other).frame (fun _ => by rw [locks]) (fun concerned => ?_)
        (fun key member => by rwa [keys])
      refine elsewhere _ (fun here => ?_)
      rcases concerned with unready | in_put
      · have unset := (custody.stages other).unready unready
        rw [here, page_ready] at unset
        cases unset
      · have theirs := (custody.stages other).in_put in_put
        rw [here] at theirs
        have same := custody.locks.alone _ _ page theirs.holds keeps.holds
        rcases mine with rfl | rfl
        · exact acting (Agent.own.inj same)
        · cases same

/-! ### New pages -/

theorem Custody.unready_apart (custody : Custody clean layout state) {other : Nat} (apart : other ≠ id)
    (unready : (state.clients id).stage.unready = true)
    (also : (state.clients other).stage.unready = true) :
    (state.clients other).v_page layout ≠ (state.clients id).v_page layout := by
  intro same
  have block := has_block_of_unready also
  exact apart (custody.blocks.page_apart (has_block_of_unready unready) block
    (custody.blocks.placed other block).2.1 same).1

/-- A step of a client on the page that it initialises. -/
theorem Filled.prepares {stage : Stage K V} (filled : Filled layout state)
    (custody : Custody clean layout state) (before : (state.clients id).stage.unready = true)
    (after : stage.unready = true)
    (clients : next.clients = Function.update state.clients id
      { state.clients id with stage := stage })
    (locks : ∀ page, page ≠ (state.clients id).v_page layout →
      next.locks.version_lock page = state.locks.version_lock page)
    (free_slots : ∀ page, page ≠ (state.clients id).v_page layout →
      next.free_slots page = state.free_slots page)
    (data : next.data = state.data) (live : next.live = state.live)
    (ready : next.ready = state.ready) (keys : next.keys = state.keys)
    (sound : StageFilled layout next ((state.clients id).v_page layout) stage) :
    Filled layout next := by
  have at_id : next.clients id = { state.clients id with stage := stage } := by
    rw [clients, Function.update_self]
  have at_other : ∀ other, other ≠ id → next.clients other = state.clients other :=
    fun other away => by rw [clients, Function.update_of_ne away]
  have unset : state.ready ((state.clients id).v_page layout) = false :=
    (custody.stages id).unready before
  refine ⟨fun offset set inside taken => ?_, fun page blank apart => ?_, ?_, ?_, fun other => ?_⟩
  · have away : offset.page ≠ (state.clients id).v_page layout := by
      intro here
      rw [ready, here, unset] at set
      cases set
    rw [ready] at set
    rw [free_slots _ away] at taken
    rw [live, data]
    exact filled.records offset set inside taken
  · have away : page ≠ (state.clients id).v_page layout := by
      rintro rfl
      refine apart id ?_ ?_
      · rw [at_id]
        exact after
      · rw [at_id]
        rfl
    rw [ready] at blank
    rw [locks page away, free_slots page away]
    refine filled.unused page blank (fun other unready => ?_)
    by_cases here : other = id
    · rw [here]
      exact away.symm
    · have apart := apart other
      rw [at_other other here] at apart
      exact apart unready
  · rw [ready, live]
    exact filled.dead
  · rw [live, keys]
    exact filled.keys
  · by_cases here : other = id
    · rw [here, at_id]
      exact sound
    · rw [at_other other here]
      have away : (state.clients other).stage.unready = true ∨
          (state.clients other).stage.in_put = true →
            (state.clients other).v_page layout ≠ (state.clients id).v_page layout := by
        rintro (unready | in_put)
        · exact custody.unready_apart here before unready
        · intro same
          obtain ⟨path, li_slot, holding⟩ := (custody.stages other).in_put in_put
          have set := custody.ready _ _ (show (state.locks.calls (.own other)).page = _ by
            rw [holding]; rfl)
          rw [same, unset] at set
          cases set
      refine (filled.stages other).frame (fun unready => by rw [locks _ (away (.inl unready))])
        (fun concerned => ⟨free_slots _ (away concerned), fun _ => by rw [data],
          fun _ => by rw [live]⟩) (fun key member => by rwa [keys])

/-- The page of a client is ready when all its slots are free. -/
theorem Filled.initialised (filled : Filled layout state)
    (free : ∀ slot, slot < layout.num_slots_per_page →
      state.free_slots ((state.clients id).v_page layout) slot = true) :
    Filled layout ((state.initialised ((state.clients id).v_page layout)).at id .idle) := by
  have at_id : ((state.initialised ((state.clients id).v_page layout)).at id .idle).clients id =
      { state.clients id with stage := .idle } := Function.update_self ..
  have at_other : ∀ other, other ≠ id →
      ((state.initialised ((state.clients id).v_page layout)).at id .idle).clients other =
        state.clients other := fun other away => Function.update_of_ne away ..
  have ready : ∀ page, page ≠ (state.clients id).v_page layout →
      ((state.initialised ((state.clients id).v_page layout)).at id .idle).ready page =
        state.ready page := fun page away => Function.update_of_ne away ..
  have grows : ∀ page,
      ((state.initialised ((state.clients id).v_page layout)).at id .idle).ready page = false →
        page ≠ (state.clients id).v_page layout ∧ state.ready page = false := by
    intro page unset
    by_cases here : page = (state.clients id).v_page layout
    · rw [here] at unset
      simp [State.at, State.set_client, State.initialised] at unset
    · exact ⟨here, (ready page here).symm.trans unset⟩
  refine ⟨fun offset set inside taken => ?_, fun page unset apart => ?_, fun offset unset => ?_,
    filled.keys, fun other => ?_⟩
  · by_cases here : offset.page = (state.clients id).v_page layout
    · have still := free offset.data_offset inside
      rw [← here] at still
      cases still.symm.trans taken
    · exact filled.records offset ((ready _ here).symm.trans set) inside taken
  · obtain ⟨away, before⟩ := grows page unset
    refine filled.unused page before (fun other also => ?_)
    by_cases here : other = id
    · rw [here]
      exact away.symm
    · have apart := apart other
      rw [at_other other here] at apart
      exact apart also
  · exact filled.dead offset (grows _ unset).2
  · by_cases here : other = id
    · rw [here, at_id]
      exact .of_apart rfl rfl rfl
    · rw [at_other other here]
      exact (filled.stages other).frame (fun _ => rfl)
        (fun _ => ⟨rfl, fun _ => rfl, fun _ => rfl⟩) (fun _ member => member)

theorem StageFilled.of_fresh {v_page : Page} {stage : Stage K V} (fresh : stage.fresh = true)
    (blank : (state.locks.version_lock v_page).is_used = false ∧
      ∀ slot, state.free_slots v_page slot = false)
    (keys : ∀ put, stage.put = some put → put.key ∈ state.keys) :
    StageFilled layout state v_page stage := by
  cases stage with
  | disown => exact ⟨fun _ => blank, nofun, nofun, nofun, nofun, nofun, keys⟩
  | init kind next_word resume =>
    cases next_word with
    | none =>
      cases kind with
      | claimed | moved => exact ⟨fun _ => blank, nofun, nofun, nofun, nofun, nofun, keys⟩
      | repeated => cases fresh
    | some word => cases kind <;> cases fresh
  | _ => cases fresh

theorem StageFilled.of_blank {v_page : Page} {stage : Stage K V} (blank : stage.blank = true)
    (free : ∀ slot, slot < layout.num_slots_per_page → state.free_slots v_page slot = true)
    (keys : ∀ put, stage.put = some put → put.key ∈ state.keys) :
    StageFilled layout state v_page stage := by
  cases stage with
  | own => exact ⟨nofun, nofun, fun _ => free, nofun, nofun, nofun, keys⟩
  | init kind next_word resume =>
    cases kind with
    | repeated => exact ⟨nofun, nofun, fun _ => free, nofun, nofun, nofun, keys⟩
    | _ => cases blank
  | _ => cases blank

theorem StageFilled.of_filling {v_page : Page} {kind : Init} {word : Nat}
    {resume : Option (Put K V)} (first : kind ≠ .repeated)
    (used : (state.locks.version_lock v_page).is_used = true)
    (words : ∀ slot, state.free_slots v_page slot = decide (slot / 64 < word))
    (keys : ∀ put, resume = some put → put.key ∈ state.keys) :
    StageFilled layout state v_page (.init kind (some word) resume) := by
  cases kind with
  | repeated => exact absurd rfl first
  | claimed | moved =>
    refine ⟨nofun, fun other here => ?_, nofun, nofun, nofun, nofun, keys⟩
    cases here
    exact ⟨used, words⟩

/-- A put has a slot of its page. -/
theorem StageFilled.of_slot {v_page : Page} {stage : Stage K V} (ready : stage.unready = false)
    (claims : ∀ slot, stage.claims = some slot →
      slot < layout.num_slots_per_page ∧ state.free_slots v_page slot = true)
    (key : ∀ put slot, stage = .write put slot true → (state.data ⟨v_page, slot⟩).1 = put.key)
    (whole : ∀ put slot bits, stage = .change (.claim put slot) bits →
      state.live ⟨v_page, slot⟩ = some (state.data ⟨v_page, slot⟩))
    (keys : ∀ put, stage.put = some put → put.key ∈ state.keys) :
    StageFilled layout state v_page stage := by
  refine ⟨fun here => ?_, fun word here => ?_, fun here => ?_, claims, key, whole, keys⟩
  · cases ready.symm.trans (unready_of_page (.inl here))
  · cases ready.symm.trans (unready_of_page (.inr (.inl ⟨word, here⟩)))
  · cases ready.symm.trans (unready_of_page (.inr (.inr here)))

/-- A client turns to a page that nobody has used. -/
theorem Filled.enter {client : Client K V} (filled : Filled layout state)
    (custody : Custody clean layout next) (before : (state.clients id).stage.unready = false)
    (clients : next.clients = Function.update state.clients id client)
    (locks : next.locks = state.locks) (free_slots : next.free_slots = state.free_slots)
    (data : next.data = state.data) (live : next.live = state.live)
    (ready : next.ready = state.ready) (keys : next.keys = state.keys)
    (fresh : client.stage.fresh = true) (put : client.stage.put = (state.clients id).stage.put) :
    Filled layout next := by
  have at_id : next.clients id = client := by rw [clients, Function.update_self]
  have at_other : ∀ other, other ≠ id → next.clients other = state.clients other :=
    fun other away => by rw [clients, Function.update_of_ne away]
  have unready : (next.clients id).stage.unready = true := by
    rw [at_id]
    exact unready_of_page (.inl fresh)
  have blank : (state.locks.version_lock (client.v_page layout)).is_used = false ∧
      ∀ slot, state.free_slots (client.v_page layout) slot = false := by
    refine filled.unused _ ?_ (fun other also same => ?_)
    · have unset := (custody.stages id).unready unready
      rwa [at_id, ready] at unset
    · have apart : other ≠ id := by
        rintro rfl
        rw [before] at also
        cases also
      refine custody.unready_apart apart unready (by rwa [at_other other apart]) ?_
      rw [at_other other apart, at_id]
      exact same
  refine ⟨?_, fun page unset apart => ?_, ?_, ?_, fun other => ?_⟩
  · rw [ready, free_slots, live, data]
    exact filled.records
  · rw [ready] at unset
    rw [locks, free_slots]
    refine filled.unused page unset (fun other also => ?_)
    have acting : other ≠ id := by
      rintro rfl
      rw [before] at also
      cases also
    have apart := apart other
    rw [at_other other acting] at apart
    exact apart also
  · rw [ready, live]
    exact filled.dead
  · rw [live, keys]
    exact filled.keys
  · by_cases here : other = id
    · rw [here, at_id]
      refine .of_fresh fresh ?_ (fun resumed here => ?_)
      · rw [locks, free_slots]
        exact blank
      · rw [keys]
        exact (filled.stages id).keys resumed (put ▸ here)
    · rw [at_other other here]
      exact (filled.stages other).frame (fun _ => by rw [locks])
        (fun _ => ⟨by rw [free_slots], fun _ => by rw [data], fun _ => by rw [live]⟩)
        (fun _ member => by rwa [keys])

/-! ### Steps of clients -/

theorem own_used (lock : version_lock_t) :
    (lock ||| CLIENT_BIT).is_used = lock.is_used ∧
      (lock &&& NO_CLIENT_BIT).is_used = lock.is_used := by
  revert lock
  decide

/-- Agents leave the locks alone of pages that are not ready. -/
theorem with_locks_used {action : Intents.Action Agent}
    (called : ∀ agent page, (state.locks.calls agent).page = some page → state.ready page = true)
    (stepped : state.with_locks action = some next) {page : Page} (unset : state.ready page = false) :
    (next.locks.version_lock page).is_used = (state.locks.version_lock page).is_used := by
  obtain ⟨locks, possible, rfl⟩ := with_locks_some stepped
  cases action with
  | call agent spurious =>
    obtain ⟨call, other, -, about, -, elsewhere, -⟩ := Intents.call_step_local possible
    have away : page ≠ other := by
      rintro rfl
      cases unset.symm.trans (called agent page about)
    exact congrArg version_lock_t.is_used (elsewhere page away)
  | own other =>
    cases possible
    simp only [Intents.State.set_lock, Function.update_apply]
    split
    · rename_i here
      rw [here]
      exact (own_used _).1
    · rfl
  | disown other =>
    cases possible
    simp only [Intents.State.set_lock, Function.update_apply]
    split
    · rename_i here
      rw [here]
      exact (own_used _).2
    · rfl
  | lock agent path other =>
    obtain ⟨-, rfl⟩ := Intents.lock_step possible
    rfl
  | unlock agent =>
    obtain ⟨_, _, _, -, rfl⟩ := Intents.unlock_step possible
    rfl
  | resolved agent encountered =>
    obtain ⟨_, _, _, -, rfl⟩ := Intents.resolved_step possible
    rfl
  | repair agent other =>
    simp only [Intents.State.step] at possible
    split at possible <;> cases possible
    rfl

/-- A client goes on to a stage with a step of an agent. -/
theorem Filled.agent (id : Nat) {mid : State K V} {stage : Stage K V}
    {action : Intents.Action Agent} (filled : Filled layout state) (custody : Custody clean layout state)
    (stepped : mid.with_locks action = some next)
    (clients : mid.clients = Function.update state.clients id
      { state.clients id with stage := stage })
    (locks : mid.locks = state.locks) (free_slots : mid.free_slots = state.free_slots)
    (data : mid.data = state.data) (live : mid.live = state.live)
    (ready : mid.ready = state.ready) (keys : mid.keys = state.keys)
    (unready : stage.unready = (state.clients id).stage.unready)
    (mine : StageFilled layout state ((state.clients id).v_page layout) stage) :
    Filled layout next := by
  have used : ∀ page, state.ready page = false →
      (next.locks.version_lock page).is_used = (state.locks.version_lock page).is_used := by
    intro page unset
    rw [← locks]
    refine with_locks_used (fun agent other about => ?_) stepped (by rwa [ready])
    rw [locks] at about
    rw [ready]
    exact custody.ready agent other about
  obtain ⟨after, -, rfl⟩ := with_locks_some stepped
  exact filled.quiet clients used free_slots data live ready keys custody unready mine

/-- An agent goes on by itself. -/
theorem Filled.agents {action : Intents.Action Agent} (filled : Filled layout state)
    (custody : Custody clean layout state) (stepped : state.with_locks action = some next) :
    Filled layout next :=
  filled.agent 0 custody stepped (Function.update_eq_self ..).symm rfl rfl rfl rfl rfl rfl rfl
    (filled.stages 0)

/-- All words are set when `init` is done. -/
theorem words_cover {slot next_word : Nat} (inside : slot < layout.num_slots_per_page)
    (done : ¬next_word < layout.words) : slot / 64 < next_word := by
  unfold Layout.words at done
  omega

theorem Filled.begin_put {put : Put K V} (filled : Filled layout state)
    (custody : Custody clean layout state) (idle : (state.clients id).stage = .idle)
    (known : put.key ∈ state.keys)
    (stepped : state.begin_put layout id put = some next) : Filled layout next := by
  refine filled.agent id custody stepped rfl rfl rfl rfl rfl rfl rfl (by rw [idle]; rfl)
    (.of_settled rfl rfl fun resumed here => ?_)
  cases here
  exact known

/-- The first `init` of a page stores its lock. -/
theorem Filled.init_lock {kind : Init} {resume : Option (Put K V)} (filled : Filled layout state)
    (custody : Custody clean layout state)
    (stage : (state.clients id).stage = .init kind none resume) :
    Filled layout { state.at id (.init kind (some 0) resume) with
      locks := state.locks.set_lock ((state.clients id).v_page layout) USED_BIT
        (state.locks.seen ((state.clients id).v_page layout)) } := by
  have sound := filled.stages id
  rw [stage] at sound
  refine filled.prepares custody (by rw [stage]; rfl) rfl rfl
    (fun page away => Function.update_of_ne away ..) (fun _ _ => rfl) rfl rfl rfl rfl ?_
  have used : (Function.update state.locks.version_lock ((state.clients id).v_page layout) USED_BIT
      ((state.clients id).v_page layout)).is_used = true := by
    rw [Function.update_self]
    decide
  cases kind with
  | claimed => exact .of_filling (by decide) used (sound.fresh rfl).2 sound.keys
  | moved => exact .of_filling (by decide) used (sound.fresh rfl).2 sound.keys
  | repeated => exact .of_blank rfl (sound.blank rfl) sound.keys

/-- `init` sets a word. -/
theorem Filled.init_word {kind : Init} {next_word : Nat} {resume : Option (Put K V)}
    (filled : Filled layout state) (custody : Custody clean layout state)
    (stage : (state.clients id).stage = .init kind (some next_word) resume) :
    Filled layout ((state.set_bits ((state.clients id).v_page layout)
      (store_word (state.free_slots ((state.clients id).v_page layout)) next_word)).at id
        (.init kind (some (next_word + 1)) resume)) := by
  have sound := filled.stages id
  rw [stage] at sound
  refine filled.prepares custody (by rw [stage]; rfl) rfl rfl (fun _ _ => rfl)
    (fun page away => Function.update_of_ne away ..) rfl rfl rfl rfl ?_
  have bits : ((state.set_bits ((state.clients id).v_page layout)
      (store_word (state.free_slots ((state.clients id).v_page layout)) next_word)).at id
        (.init kind (some (next_word + 1)) resume)).free_slots ((state.clients id).v_page layout) =
      store_word (state.free_slots ((state.clients id).v_page layout)) next_word :=
    Function.update_self ..
  have counted : (∀ slot, state.free_slots ((state.clients id).v_page layout) slot =
      decide (slot / 64 < next_word)) → ∀ slot,
        store_word (state.free_slots ((state.clients id).v_page layout)) next_word slot =
          decide (slot / 64 < next_word + 1) := by
    intro before slot
    unfold store_word
    split
    · rename_i here
      simp [here]
    · rw [before slot, decide_eq_decide]
      omega
  cases kind with
  | claimed | moved =>
    refine .of_filling (by decide) (sound.filling next_word rfl).1 (fun slot => ?_) sound.keys
    rw [bits]
    exact counted (sound.filling next_word rfl).2 slot
  | repeated =>
    refine .of_blank rfl (fun slot inside => ?_) sound.keys
    rw [bits]
    unfold store_word
    rw [sound.blank rfl slot inside, ite_self]

/-- A slot is marked free, and its record is dead. -/
theorem Filled.frees {stage : Stage K V} {agent : Agent} {offset : KVOffset}
    (filled : Filled layout state) (custody : Custody clean layout state)
    (mine : agent = .own id ∨ agent = .other id) (keeps : state.locks.Keeps agent offset.page)
    (clients : next.clients = Function.update state.clients id
      { state.clients id with stage := stage })
    (locks : next.locks = state.locks) (ready : next.ready = state.ready)
    (keys : next.keys = state.keys) (data : next.data = state.data)
    (free_slots : next.free_slots = Function.update state.free_slots offset.page
      (Function.update (state.free_slots offset.page) offset.data_offset true))
    (live : next.live = Function.update state.live offset none)
    (before : (state.clients id).stage.unready = false)
    (plain : stage.fresh = false ∧ stage.filling = none ∧ stage.blank = false ∧
      stage.claims = none ∧ stage.put = none) : Filled layout next := by
  have page_ready : state.ready offset.page = true := by
    obtain ⟨path, li_slot, holding⟩ := keeps
    exact custody.ready agent offset.page (by rw [holding]; rfl)
  refine filled.locked custody mine keeps clients locks ready keys (fun other away => ?_) before
    (fun slot inside taken => ?_) (fun slot record wrote => ?_) ?_
  · refine ⟨?_, fun _ => by rw [data], fun slot => ?_⟩
    · rw [free_slots, Function.update_of_ne away]
    · rw [live, Function.update_of_ne]
      rintro rfl
      exact away rfl
  · rw [free_slots, Function.update_self, Function.update_apply] at taken
    split at taken
    · cases taken
    · rename_i away
      rw [live, data, Function.update_of_ne]
      · exact filled.records ⟨offset.page, slot⟩ page_ready inside taken
      · exact fun same => away (congrArg KVOffset.data_offset same)
  · rw [live, Function.update_apply] at wrote
    split at wrote
    · cases wrote
    · exact filled.keys _ record wrote
  · obtain ⟨fresh, filling, blank, claims, put⟩ := plain
    refine ⟨fun here => ?_, fun word here => ?_, fun here => ?_, fun slot here => ?_,
      fun other slot here => ?_, fun other slot bits here => ?_, fun other here => ?_⟩
    · cases fresh.symm.trans here
    · cases filling.symm.trans here
    · cases blank.symm.trans here
    · cases claims.symm.trans here
    · rw [here] at claims
      cases claims
    · rw [here] at claims
      cases claims
    · cases put.symm.trans here

/-- A put writes into the slot that it has found. -/
theorem Filled.writes {stage : Stage K V} {slot : Nat} {record : K × V}
    (filled : Filled layout state) (custody : Custody clean layout state)
    (in_put : (state.clients id).stage.in_put = true)
    (settled : (state.clients id).stage.away = false)
    (free : state.free_slots ((state.clients id).v_page layout) slot = true)
    (clients : next.clients = Function.update state.clients id
      { state.clients id with stage := stage })
    (locks : next.locks = state.locks) (ready : next.ready = state.ready)
    (keys : next.keys = state.keys) (free_slots : next.free_slots = state.free_slots)
    (data : next.data =
      Function.update state.data ⟨(state.clients id).v_page layout, slot⟩ record)
    (live : next.live = state.live ∨ record.1 ∈ state.keys ∧ next.live =
      Function.update state.live ⟨(state.clients id).v_page layout, slot⟩ (some record))
    (before : (state.clients id).stage.unready = false)
    (sound : StageFilled layout next ((state.clients id).v_page layout) stage) :
    Filled layout next := by
  have same_live : ∀ offset, offset ≠ ⟨(state.clients id).v_page layout, slot⟩ →
      next.live offset = state.live offset := by
    intro offset apart
    rcases live with same | ⟨-, written⟩
    · rw [same]
    · rw [written, Function.update_of_ne apart]
  have same_data : ∀ offset, offset ≠ ⟨(state.clients id).v_page layout, slot⟩ →
      next.data offset = state.data offset :=
    fun offset apart => by rw [data, Function.update_of_ne apart]
  have elsewhere : ∀ page, page ≠ (state.clients id).v_page layout → ∀ other,
      (⟨page, other⟩ : KVOffset) ≠ ⟨(state.clients id).v_page layout, slot⟩ :=
    fun page away other same => away (congrArg KVOffset.page same)
  refine filled.locked custody (.inl rfl) ((custody.stages id).in_put in_put) clients locks ready
    keys (fun page away => ?_) before (fun other inside taken => ?_) (fun other found wrote => ?_)
    sound
  · exact ⟨by rw [free_slots], fun other => same_data _ (elsewhere page away other),
      fun other => same_live _ (elsewhere page away other)⟩
  · rw [free_slots] at taken
    have apart : (⟨(state.clients id).v_page layout, other⟩ : KVOffset) ≠
        ⟨(state.clients id).v_page layout, slot⟩ := by
      intro same
      cases congrArg KVOffset.data_offset same
      cases free.symm.trans taken
    rw [same_live _ apart, same_data _ apart]
    exact filled.records ⟨_, other⟩ ((custody.stages id).settled settled) inside taken
  · rcases live with same | ⟨known, written⟩
    · rw [same] at wrote
      exact filled.keys _ found wrote
    · rw [written, Function.update_apply] at wrote
      split at wrote
      · cases wrote
        exact known
      · exact filled.keys _ found wrote

/-- A put claims the slot that it has written. -/
theorem Filled.claimed {put : Put K V} {slot : Nat} {bits : Nat → Bool}
    (filled : Filled layout state) (custody : Custody clean layout state)
    (stage : (state.clients id).stage = .change (.claim put slot) (some bits)) :
    Filled layout ((state.set_bits ((state.clients id).v_page layout)
      (Function.update (state.free_slots ((state.clients id).v_page layout)) slot false)).at id
        (.resolve put slot)) := by
  have sound := filled.stages id
  have held := custody.stages id
  rw [stage] at sound held
  refine filled.locked custody (.inl rfl) (held.in_put rfl) rfl rfl rfl rfl (fun page away => ?_)
    (by rw [stage]; rfl) (fun other inside taken => ?_) (fun other record wrote => ?_)
    (.of_settled rfl rfl sound.keys)
  · exact ⟨Function.update_of_ne away .., fun _ => rfl, fun _ => rfl⟩
  · change state.live ⟨_, other⟩ = some (state.data ⟨_, other⟩)
    by_cases here : other = slot
    · rw [here]
      exact sound.whole put slot _ rfl
    · change Function.update state.free_slots _ _ _ other = false at taken
      rw [Function.update_self, Function.update_of_ne here] at taken
      exact filled.records ⟨_, other⟩ (held.settled rfl) inside taken
  · exact filled.keys _ record wrote

/-- An update stores the value of a record. -/
theorem Filled.stored {offset : KVOffset} {value : V}
    (filled : Filled layout state) (custody : Custody clean layout state)
    (keeps : state.locks.Keeps (.other id) offset.page)
    (stage : (state.clients id).stage = .store offset value) :
    Filled layout { state.at id .leave with
      data := Function.update state.data offset ((state.data offset).1, value)
      live := Function.update state.live offset
        ((state.live offset).map (fun record => (record.1, value))) } := by
  have page_ready : state.ready offset.page = true := by
    obtain ⟨path, li_slot, holding⟩ := keeps
    exact custody.ready _ offset.page (by rw [holding]; rfl)
  refine filled.locked custody (.inr rfl) keeps rfl rfl rfl rfl (fun page away => ?_)
    (by rw [stage]; rfl) (fun other inside taken => ?_) (fun other record wrote => ?_)
    (.of_apart rfl rfl rfl)
  · refine ⟨rfl, fun _ => Function.update_of_ne ?_ .., fun _ => Function.update_of_ne ?_ ..⟩
    · exact fun same => away (congrArg KVOffset.page same)
    · exact fun same => away (congrArg KVOffset.page same)
  · have before := filled.records ⟨offset.page, other⟩ page_ready inside taken
    change Function.update state.live _ _ _ = some (Function.update state.data _ _ _)
    by_cases here : (⟨offset.page, other⟩ : KVOffset) = offset
    · rw [here] at before ⊢
      rw [Function.update_self, Function.update_self, before]
      rfl
    · rw [Function.update_of_ne here, Function.update_of_ne here]
      exact before
  · change Function.update state.live _ _ _ = some record at wrote
    rw [Function.update_apply] at wrote
    split at wrote
    · obtain ⟨before, found, rfl⟩ := Option.map_eq_some_iff.mp wrote
      exact filled.keys offset before found
    · exact filled.keys _ record wrote

theorem Filled.grow (filled : Filled layout state) (key : K) :
    Filled layout { state with keys := key :: state.keys } :=
  ⟨filled.records, filled.unused, filled.dead,
    fun offset record wrote => List.mem_cons_of_mem _ (filled.keys offset record wrote),
    fun id => (filled.stages id).frame (fun _ => rfl) (fun _ => ⟨rfl, fun _ => rfl, fun _ => rfl⟩)
      (fun _ member => List.mem_cons_of_mem _ member)⟩

theorem Filled.begin_free {free : Free K} (filled : Filled layout state)
    (custody : Custody clean layout state) (before : (state.clients id).stage.unready = false)
    (stepped : state.begin_free layout id free = some next) : Filled layout next := by
  simp only [State.begin_free] at stepped
  split at stepped
  · cases stepped
    exact filled.quiet rfl (fun _ _ => rfl) rfl rfl rfl rfl rfl custody before.symm
      (.of_apart rfl rfl rfl)
  · exact filled.agent id custody stepped rfl rfl rfl rfl rfl rfl rfl before.symm
      (.of_apart rfl rfl rfl)

variable [DecidableEq K]

theorem Filled.client_step (filled : Filled layout state) (custody : Custody clean layout state)
    (custody' : Custody clean layout next)
    (stepped : state.client_step layout id = some next) : Filled layout next := by
  have sound := filled.stages id
  have held := custody.stages id
  have goes : ∀ stage, stage.unready = (state.clients id).stage.unready →
      StageFilled layout state ((state.clients id).v_page layout) stage →
        Filled layout (state.at id stage) :=
    fun stage unready mine => filled.quiet rfl (fun _ _ => rfl) rfl rfl rfl rfl rfl custody unready mine
  simp only [State.client_step] at stepped
  split at stepped <;> rename_i stage <;> rw [stage] at sound goes held
  · cases stepped
  · cases stepped
  · cases stepped
  · cases stepped
  · -- disown
    exact filled.agent id custody stepped rfl rfl rfl rfl rfl rfl rfl (by rw [stage]; rfl)
      (.of_fresh rfl (sound.fresh rfl) sound.keys)
  · -- init stores the lock
    cases stepped
    exact filled.init_lock custody stage
  · -- init sets a word, or is done
    rename_i kind next_word resume
    split at stepped
    · cases stepped
      exact filled.init_word custody stage
    · rename_i done
      split at stepped
      · cases stepped
        refine goes _ rfl (.of_blank rfl (fun slot inside => ?_) sound.keys)
        rw [(sound.filling next_word rfl).2 slot]
        exact decide_eq_true (words_cover inside done)
      · rename_i put later
        have free : ∀ slot, slot < layout.num_slots_per_page →
            state.free_slots ((state.clients id).v_page layout) slot = true := by
          intro slot inside
          cases kind with
          | claimed => exact (later rfl).elim
          | repeated => exact sound.blank rfl slot inside
          | moved =>
            rw [(sound.filling next_word rfl).2 slot]
            exact decide_eq_true (words_cover inside done)
        have ready := filled.initialised free
        refine ready.begin_put (custody.initialised id (by rw [stage]; rfl)) (by rw [at_self])
          (sound.keys put rfl) ((begin_put_at _ put).trans stepped)
      · cases stepped
  · -- own
    exact (filled.initialised (sound.blank rfl)).agents
      (custody.initialised id (by rw [stage]; rfl)) stepped
  · -- own
    exact filled.agent id custody stepped rfl rfl rfl rfl rfl rfl rfl (by rw [stage]; rfl)
      (.of_blank rfl (sound.blank rfl) sound.keys)
  · -- lock
    split at stepped
    · split at stepped <;> cases stepped
      · rename_i slot found
        refine goes _ rfl (.of_slot rfl (fun other here => ?_) (fun _ _ here => ?_)
          (fun _ _ _ here => ?_) sound.keys) <;> cases here
        exact ⟨List.mem_range.mp (List.mem_of_find?_eq_some found), List.find?_some found⟩
      · exact goes _ rfl (.of_settled rfl rfl sound.keys)
    · cases stepped
  · -- full
    rename_i put
    split at stepped
    · exact filled.agents custody stepped
    · split at stepped <;> cases stepped
      · exact goes _ rfl (.of_settled rfl rfl sound.keys)
      · exact filled.enter custody' (by rw [stage]; rfl) rfl rfl rfl rfl rfl rfl rfl rfl
          (by rw [stage]; rfl)
    · cases stepped
  · -- write the key
    rename_i put slot
    cases stepped
    refine filled.writes custody (by rw [stage]; rfl) (by rw [stage]; rfl) (sound.claims slot rfl).2
      rfl rfl rfl rfl rfl rfl (.inl rfl) (by rw [stage]; rfl)
      (.of_slot rfl sound.claims (fun other here there => ?_) (fun _ _ _ there => ?_) sound.keys) <;>
        cases there
    change (Function.update state.data _ _ _).1 = put.key
    rw [Function.update_self]
  · -- write the value
    rename_i put slot
    cases stepped
    have key := sound.key put slot rfl
    refine filled.writes custody (by rw [stage]; rfl) (by rw [stage]; rfl) (sound.claims slot rfl).2
      rfl rfl rfl rfl rfl rfl (.inr ⟨?_, rfl⟩) (by rw [stage]; rfl)
      (.of_slot rfl sound.claims (fun _ _ there => ?_) (fun other here bits there => ?_) sound.keys)
    · rw [key]
      exact sound.keys put rfl
    · cases there
    · cases there
      change Function.update state.live _ _ _ = some (Function.update state.data _ _ _)
      rw [Function.update_self, Function.update_self]
  · -- load the free slots
    rename_i site
    cases stepped
    cases site with
    | claim put slot =>
      refine goes _ rfl (.of_slot rfl sound.claims (fun _ _ there => ?_)
        (fun other here bits there => ?_) sound.keys) <;> cases there
      exact sound.whole put slot none rfl
    | own | queued | target =>
      exact goes _ rfl (.of_apart rfl rfl rfl)
  · -- store them
    rename_i site bits
    cases stepped
    have current := held.bits site bits rfl
    obtain ⟨agent, mine, keeps⟩ := held.keeps
    have unready : (state.clients id).stage.unready = false := by
      rw [stage]
      rfl
    have marked : store_bit (state.free_slots (site.offset ((state.clients id).v_page layout)).page)
        bits (site.offset ((state.clients id).v_page layout)).data_offset site.bit =
          Function.update (state.free_slots (site.offset ((state.clients id).v_page layout)).page)
            (site.offset ((state.clients id).v_page layout)).data_offset site.bit := by
      rw [current, store_bit_self]
    rw [marked]
    cases site with
    | claim put slot => exact filled.claimed custody stage
    | own free =>
      exact filled.frees custody mine keeps rfl rfl rfl rfl rfl rfl rfl unready
        ⟨rfl, rfl, rfl, rfl, rfl⟩
    | queued free entry todo new_offsets =>
      exact filled.frees custody mine keeps rfl rfl rfl rfl rfl rfl rfl unready
        ⟨rfl, rfl, rfl, rfl, rfl⟩
    | target free =>
      refine filled.frees custody mine keeps rfl rfl rfl rfl rfl rfl rfl unready ?_
      split <;> exact ⟨rfl, rfl, rfl, rfl, rfl⟩
  · -- acquire
    split at stepped <;> cases stepped <;>
      exact goes _ rfl (.of_apart rfl rfl rfl)
  · -- spin
    split at stepped <;> cases stepped
    exact filled.quiet rfl (fun _ _ => rfl) rfl rfl rfl rfl rfl custody (by rw [stage]; rfl)
      (.of_apart rfl rfl rfl)
  · -- scan
    split at stepped <;> cases stepped <;>
      exact goes _ rfl (.of_apart rfl rfl rfl)
  · -- the scan is done
    cases stepped
    exact filled.quiet rfl (fun _ _ => rfl) rfl rfl rfl rfl rfl custody (by rw [stage]; rfl)
      (.of_apart rfl rfl rfl)
  · -- release
    exact filled.agent id custody stepped rfl rfl rfl rfl rfl rfl rfl (by rw [stage]; rfl)
      (.of_apart rfl rfl rfl)
  · -- dequeue
    split at stepped <;> cases stepped
    exact filled.quiet rfl (fun _ _ => rfl) rfl rfl rfl rfl rfl custody (by rw [stage]; rfl)
      (.of_apart rfl rfl rfl)
  · cases stepped
    exact filled.quiet rfl (fun _ _ => rfl) rfl rfl rfl rfl rfl custody (by rw [stage]; rfl)
      (.of_apart rfl rfl rfl)
  · cases stepped
    exact filled.quiet rfl (fun _ _ => rfl) rfl rfl rfl rfl rfl custody (by rw [stage]; rfl)
      (.of_apart rfl rfl rfl)
  · -- finish
    split at stepped
    · exact filled.agents custody stepped
    · cases stepped
      exact goes _ rfl (.of_apart rfl rfl rfl)
    · cases stepped
      exact goes _ rfl (.of_apart rfl rfl rfl)
    · cases stepped
  · -- unlock
    split at stepped
    · exact filled.agents custody stepped
    · cases stepped
      exact filled.quiet rfl (fun _ _ => rfl) rfl rfl rfl rfl rfl custody (by rw [stage]; rfl)
        (.of_apart rfl rfl rfl)
    · cases stepped
  · -- update
    split at stepped
    · split at stepped <;> cases stepped <;>
        exact goes _ rfl (.of_apart rfl rfl rfl)
    · cases stepped
      exact goes _ rfl (.of_apart rfl rfl rfl)
    · cases stepped
  · -- store
    rename_i offset value
    cases stepped
    exact filled.stored custody (held.marked _ rfl) stage
  · -- leave
    split at stepped
    · exact filled.agents custody stepped
    · cases stepped
      exact goes _ rfl (.of_apart rfl rfl rfl)
    · cases stepped

theorem Filled.step {action : Action K V} (filled : Filled layout state)
    (custody : Custody (fun _ => True) layout state) (orderly : state.Orderly layout action)
    (stepped : state.step layout action = some next) : Filled layout next := by
  have custody' := custody.step orderly (custody.alone orderly) stepped
  cases action with
  | client id => exact filled.client_step custody custody' stepped
  | agent agent spurious => exact filled.agents custody stepped
  | get_client id =>
    simp only [State.step] at stepped
    split at stepped <;> cases stepped
    rename_i stage
    exact filled.quiet rfl (fun _ _ => rfl) rfl rfl rfl rfl rfl custody (by rw [stage]; rfl)
      (.of_apart rfl rfl rfl)
  | get_new_block id block page =>
    simp only [State.step] at stepped
    split at stepped
    · rename_i old_block resume stage
      split at stepped <;> cases stepped
      refine filled.enter custody' (by rw [stage]; rfl) rfl rfl rfl rfl rfl rfl rfl ?_ ?_
      · cases old_block <;> rfl
      · rw [stage]
        cases old_block <;> rfl
    · cases stepped
  | put id key value =>
    simp only [State.step] at stepped
    split at stepped
    · rename_i idle
      have kept : Custody (fun _ => True) layout { state with keys := key :: state.keys } :=
        custody.same rfl rfl rfl rfl rfl
      exact (filled.grow key).begin_put kept idle List.mem_cons_self stepped
    · cases stepped
  | update id offset key value =>
    simp only [State.step] at stepped
    split at stepped
    · rename_i idle
      split at stepped
      · exact filled.agent id custody stepped rfl rfl rfl rfl rfl rfl rfl (by rw [idle]; rfl)
          (.of_apart rfl rfl rfl)
      · cases stepped
    · cases stepped
  | remove id offset key =>
    simp only [State.step] at stepped
    split at stepped
    · rename_i idle
      split at stepped
      · exact filled.begin_free custody (by rw [idle]; rfl) stepped
      · cases stepped
    · cases stepped
  | old_offset id old_offset =>
    simp only [State.step] at stepped
    split at stepped
    · rename_i stage
      split at stepped
      · exact filled.begin_free custody (by rw [stage]; rfl) stepped
      · cases stepped
    · rename_i stage
      cases stepped
      exact filled.quiet rfl (fun _ _ => rfl) rfl rfl rfl rfl rfl custody (by rw [stage]; rfl)
        (.of_apart rfl rfl rfl)
    · cases stepped
  | repair reader page =>
    simp only [State.step] at stepped
    split at stepped
    · exact filled.agents custody stepped
    · cases stepped

omit [DecidableEq K] in
theorem Filled.created (created : state.Created) : Filled layout state := by
  refine ⟨fun offset set => ?_, fun page _ _ => ⟨?_, created.free_slots page⟩,
    fun offset _ => created.live offset, fun offset record wrote => ?_, fun id => ?_⟩
  · rw [created.ready] at set
    cases set
  · rw [created.version_lock]
    rfl
  · rw [created.live] at wrote
    cases wrote
  · rw [created.clients]
    exact .of_apart rfl rfl rfl

theorem Filled.reached (reached : (machine layout K V).Reach (State.Orderly layout) state) :
    Filled layout state :=
  reached.invariant_reached (fun _ created => .created created)
    (fun _ _ _ before filled orderly stepped => filled.step (Custody.reached before) orderly stepped)

/-! ### The scan -/

omit [DecidableEq K] in
theorem mem_visit_records {block_lo block_hi : Nat} {entry : (K × V) × KVOffset} :
    entry ∈ state.visit_records layout block_lo block_hi ↔
      ∃ bn pn sn, (block_lo ≤ bn ∧ bn < block_hi) ∧ pn < layout.num_pages_per_block ∧
        sn < layout.num_slots_per_page ∧
        (state.locks.version_lock (layout.page bn pn)).is_used = true ∧
        state.free_slots (layout.page bn pn) sn = false ∧
        entry = (state.data ⟨layout.page bn pn, sn⟩, ⟨layout.page bn pn, sn⟩) := by
  simp only [State.visit_records, List.mem_flatMap, List.mem_range'_1, List.mem_range]
  constructor
  · rintro ⟨bn, within, pn, page, found⟩
    split at found
    · rename_i used
      obtain ⟨sn, inside, here⟩ := List.mem_filterMap.mp found
      split at here <;> cases here
      rename_i taken
      exact ⟨bn, pn, sn, by omega, page, List.mem_range.mp inside, used,
        (Bool.not_eq_true _).mp taken, rfl⟩
    · cases found
  · rintro ⟨bn, pn, sn, within, page, inside, used, taken, rfl⟩
    refine ⟨bn, by omega, pn, page, ?_⟩
    rw [if_pos used]
    refine List.mem_filterMap.mpr ⟨sn, List.mem_range.mpr inside, ?_⟩
    simp only [taken, Bool.false_eq_true, if_false]

def State.Written (state : State K V) (entry : (K × V) × KVOffset) : Prop :=
  state.live entry.2 = some entry.1 ∧ entry.1.1 ∈ state.keys

omit [DecidableEq K] in
/-- The first `init` of a page has yet to set a word. -/
theorem StageFilled.initialising {stage : Stage K V} {v_page : Page} {slot : Nat}
    (filled : StageFilled layout state v_page stage) (unready : stage.unready = true)
    (inside : slot < layout.num_slots_per_page)
    (used : (state.locks.version_lock v_page).is_used = true)
    (taken : state.free_slots v_page slot = false) :
    ∃ next_word, stage.filling = some next_word ∧ next_word < layout.words := by
  have kinds : stage.fresh = true ∨ stage.blank = true ∨ ∃ word, stage.filling = some word := by
    cases stage with
    | disown => exact .inl rfl
    | own => exact .inr (.inl rfl)
    | init kind next_word resume =>
      cases kind with
      | repeated => exact .inr (.inl rfl)
      | claimed | moved =>
        cases next_word with
        | none => exact .inl rfl
        | some word => exact .inr (.inr ⟨word, rfl⟩)
    | _ => cases unready
  obtain fresh | blank | ⟨word, filling⟩ := kinds
  · cases used.symm.trans (filled.fresh fresh).1
  · cases taken.symm.trans (filled.blank blank slot inside)
  · refine ⟨word, filling, ?_⟩
    by_contra done
    rw [(filled.filling word filling).2 slot] at taken
    exact of_decide_eq_false taken (words_cover inside done)

omit [DecidableEq K] in
/-- A slot that looks taken on a page in use holds a record that a put has
written, unless a client initialises the page. -/
theorem Filled.written (offset : KVOffset) (filled : Filled layout state)
    (done : ∀ id, ¬state.Initialising layout id)
    (inside : offset.data_offset < layout.num_slots_per_page)
    (used : (state.locks.version_lock offset.page).is_used = true)
    (taken : state.free_slots offset.page offset.data_offset = false) :
    state.live offset = some (state.data offset) := by
  cases set : state.ready offset.page with
  | true => exact filled.records offset set inside taken
  | false =>
    exfalso
    have unowned := filled.unused offset.page set
    by_cases mine : ∃ id, (state.clients id).stage.unready = true ∧
        (state.clients id).v_page layout = offset.page
    · obtain ⟨id, unready, here⟩ := mine
      have sound := filled.stages id
      rw [here] at sound
      exact done id (sound.initialising unready inside used taken)
    · have idle := unowned (fun id unready here => mine ⟨id, unready, here⟩)
      cases used.symm.trans idle.1

omit [DecidableEq K] in
/-- The word that `init` sets next still has the slots of an empty page, which
look taken. -/
theorem Filled.phantom (filled : Filled layout state) (custody : Custody clean layout state)
    (initialising : state.Initialising layout id) :
    ∃ entry, entry ∈ state.visit_records layout (state.clients id).v_block_number
      ((state.clients id).v_block_number + 1) ∧ state.live entry.2 = none := by
  obtain ⟨word, filling, more⟩ := initialising
  have unready := unready_of_page (.inr (.inl ⟨word, filling⟩))
  have page := (custody.blocks.placed id (has_block_of_unready unready)).2.1
  obtain ⟨used, bits⟩ := (filled.stages id).filling word filling
  have inside : 64 * word < layout.num_slots_per_page := by
    unfold Layout.words at more
    omega
  have taken : state.free_slots ((state.clients id).v_page layout) (64 * word) = false := by
    rw [bits]
    exact decide_eq_false (by omega)
  refine ⟨(state.data ⟨(state.clients id).v_page layout, 64 * word⟩,
    ⟨(state.clients id).v_page layout, 64 * word⟩), ?_, ?_⟩
  · exact mem_visit_records.mpr ⟨_, _, _, ⟨le_rfl, Nat.lt_succ_self _⟩, page, inside, used, taken, rfl⟩
  · exact filled.dead _ ((custody.stages id).unready unready)

/-- After a kill, a scan of the pages visits the records that puts have written
and nobody has freed, and no others, unless a client was initialising a page. -/
theorem visit_records_written
    (reached : (machine layout K V).Reach (State.Orderly layout) state) :
    (∀ block_lo block_hi entry, entry ∈ state.visit_records layout block_lo block_hi →
      state.Written entry) ↔ ∀ id, ¬state.Initialising layout id := by
  have custody := Custody.reached reached
  have filled := Filled.reached reached
  constructor
  · intro written id initialising
    obtain ⟨entry, visited, dead⟩ := filled.phantom custody initialising
    cases dead.symm.trans (written _ _ entry visited).1
  · intro done block_lo block_hi entry visited
    obtain ⟨bn, pn, sn, -, -, inside, used, taken, rfl⟩ := mem_visit_records.mp visited
    have live := filled.written ⟨layout.page bn pn, sn⟩ done inside used taken
    exact ⟨live, filled.keys _ _ live⟩

/-- Client 0 has written a record and claimed its slot. -/
theorem visit_records_written_put :
    ∃ state, (machine small Nat Nat).Reach (State.Orderly small) state ∧
      ((∀ block_lo block_hi entry, entry ∈ state.visit_records small block_lo block_hi →
        state.Written entry) ↔ ∀ id, ¬state.Initialising small id) := by
  have runs : ends ((machine small Nat Nat).checked (State.orderly small))
      (joins 0 0 ++ writes 0 7 70) (fun _ => ()) = some () := by
    decide +kernel
  obtain ⟨state, ran, -⟩ := Option.map_eq_some_iff.mp runs
  have reached : (machine small Nat Nat).Reach (State.Orderly small) state :=
    Machine.Reach.run_checked (.start created_created) (fun _ _ => Orderly.of_orderly) ran
  exact ⟨state, reached, visit_records_written reached⟩

/-- A new client has stored the lock of its page, and no word of its free slots:
all its slots look taken, and hold the key 0 that nobody has put. -/
theorem init_phantom :
    ∃ state entry, (machine small Nat Nat).Reachable state ∧
      entry ∈ state.visit_records small 0 1 ∧ ¬state.Written entry ∧ state.keys = [] := by
  have before : ends (machine small Nat Nat) [.get_client 0, .get_new_block 0 0 0, .client 0]
      (fun state => (state.visit_records small 0 1, state.live ⟨small.page 0 0, 0⟩, state.keys)) =
      some ([((0, 0), ⟨small.page 0 0, 0⟩), ((0, 0), ⟨small.page 0 0, 1⟩)], none, []) := by
    decide +kernel
  obtain ⟨state, ran, here⟩ := Option.map_eq_some_iff.mp before
  simp only [Prod.mk.injEq] at here
  obtain ⟨visited, dead, keys⟩ := here
  refine ⟨state, ((0, 0), ⟨small.page 0 0, 0⟩), .run (.start created_created) ran, ?_, ?_, keys⟩
  · rw [visited]
    exact List.mem_cons_self
  · rintro ⟨live, -⟩
    cases dead.symm.trans live

end Hiom.Viper.Pages
