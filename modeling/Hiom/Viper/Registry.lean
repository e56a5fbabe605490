import Hiom.Viper.Repair
import Hiom.Frontier.Model
import Mathlib

/-!
Overwriting puts in the registry of lock intents. A put holds the entry of its
own page while `free_occupied_slot` publishes the page of the old record, so
that as many clients as there are entries can fill the registry and wait for
each other.
-/

namespace Hiom.Viper.Intents

inductive Site where
  | own
  | old
  deriving DecidableEq

/-- What the puts of `n` clients may do: no two clients own one page, and a put
frees its old record, on another page, while it holds its own. -/
def State.puts {n : Nat} (state : State (Fin n × Site)) : Action (Fin n × Site) → Bool
  | .lock (client, .own) .put page =>
      decide (state.calls (client, .old) = .idle ∧
        ∀ other, other ≠ client → (state.calls (other, .own)).page ≠ some page)
  | .lock (client, .old) .free page =>
      match state.calls (client, .own) with
      | .holding _ own _ => decide (page ≠ own)
      | _ => false
  | .call .. | .unlock (_, .old) | .resolved (_, .old) _ | .own _ | .disown _ => true
  | .unlock (client, .own) => decide (state.calls (client, .old) = .idle)
  | _ => false

def puts (n : Nat) : Machine (State (Fin n × Site)) (Action (Fin n × Site)) :=
  (machine (Fin n × Site)).checked State.puts

def Call.publishing : Call → Bool
  | .publish .. | .republish .. => true
  | _ => false

def State.Deadlocked {n : Nat} (state : State (Fin n × Site)) : Prop :=
  (∀ client, ∃ site, (state.calls (client, site)).publishing = true) ∧
    ∀ i < kLockIntentSlots, state.lock_intents i ≠ 0

/-! ### Whose the entries are -/

section Entries

variable {Id : Type} [DecidableEq Id] {state next : State Id} {id : Id}

def State.Owned (state : State Id) : Prop :=
  ∀ i, state.lock_intents i ≠ 0 → ∃ id page, (state.calls id).intent = some (page, i)

theorem Call.failed_intent (path : Path) (page : Page) (li_slot : Nat) (found : version_lock_t)
    (retries : Nat) :
    (Call.failed path page li_slot found retries).intent = some (page, li_slot) := by
  cases path with
  | put | update => rfl
  | free =>
      simp only [Call.failed]
      split
      · rfl
      · rfl

theorem Call.publishing_intent {call : Call} (spins : call.publishing = true) :
    call.intent = none := by
  cases call with
  | publish | republish => rfl
  | _ => cases spins

theorem Call.keeps_none {call : Call} (entry : Page × Nat)
    (present : (none : Option (Page × Nat)) = some entry) : call.intent = some entry := by
  cases present

/-- A call keeps its entry, or gets one, or gives it back. -/
theorem call_step_registry {spurious : Bool} (stepped : state.call_step id spurious = some next) :
    ∃ call, next.calls = Function.update state.calls id call ∧
      (next.lock_intents = state.lock_intents ∧
          (∀ entry, (state.calls id).intent = some entry → call.intent = some entry) ∨
        (∃ page i, next.lock_intents = Function.update state.lock_intents i page.address ∧
          (state.calls id).intent = none ∧ call.intent = some (page, i)) ∨
        ∃ page i, next.lock_intents = Function.update state.lock_intents i 0 ∧
          (state.calls id).intent = some (page, i)) := by
  simp only [State.call_step] at stepped
  split at stepped <;> rename_i stage <;> rw [stage]
  · cases stepped
  · cases stepped
  · cases stepped
  · -- publish
    rename_i path page i
    split at stepped <;> cases stepped
    · exact ⟨_, rfl, .inr (.inl ⟨page, i, rfl, rfl, rfl⟩)⟩
    · exact ⟨_, rfl, .inl ⟨rfl, fun _ none => none⟩⟩
  · -- load
    cases stepped
    exact ⟨_, rfl, .inl ⟨rfl, fun _ same => same⟩⟩
  · -- exchange
    split at stepped <;> cases stepped
    · exact ⟨_, rfl, .inl ⟨rfl, fun _ same => same⟩⟩
    · refine ⟨_, rfl, .inl ⟨rfl, ?_⟩⟩
      intro entry same
      rw [Call.failed_intent]
      exact same
  · -- unlocking
    cases stepped
    exact ⟨_, rfl, .inl ⟨rfl, fun _ same => same⟩⟩
  · -- clear
    rename_i page li_slot
    cases stepped
    exact ⟨_, rfl, .inr (.inr ⟨page, li_slot, rfl, rfl⟩)⟩
  · -- withdraw
    rename_i page li_slot lock_value encountered
    cases stepped
    exact ⟨_, rfl, .inr (.inr ⟨page, li_slot, rfl, rfl⟩)⟩
  · -- repair
    split at stepped <;> cases stepped <;> exact ⟨_, rfl, .inl ⟨rfl, Call.keeps_none⟩⟩
  · -- scan
    split at stepped
    · split at stepped <;> cases stepped <;>
        exact ⟨_, rfl, .inl ⟨rfl, Call.keeps_none⟩⟩
    · cases stepped
      exact ⟨_, rfl, .inl ⟨rfl, Call.keeps_none⟩⟩
  · -- reload
    split at stepped <;> cases stepped <;> exact ⟨_, rfl, .inl ⟨rfl, Call.keeps_none⟩⟩
  · -- rescan
    split at stepped
    · split at stepped <;> cases stepped <;>
        exact ⟨_, rfl, .inl ⟨rfl, Call.keeps_none⟩⟩
    · split at stepped <;> cases stepped <;>
        exact ⟨_, rfl, .inl ⟨rfl, Call.keeps_none⟩⟩
  · -- republish
    rename_i page lock_value encountered i
    split at stepped <;> cases stepped
    · refine ⟨_, rfl, .inr (.inl ⟨page, i, rfl, rfl, ?_⟩)⟩
      cases encountered
      · rfl
      · rfl
    · exact ⟨_, rfl, .inl ⟨rfl, Call.keeps_none⟩⟩

theorem State.Owned.keep {call : Call} (owned : state.Owned)
    (keeps : ∀ entry, (state.calls id).intent = some entry → call.intent = some entry)
    (calls : next.calls = Function.update state.calls id call)
    (intents : next.lock_intents = state.lock_intents) : next.Owned := by
  intro i present
  rw [intents] at present
  obtain ⟨owner, page, intent⟩ := owned i present
  refine ⟨owner, page, ?_⟩
  rw [calls]
  by_cases here : owner = id
  · subst here
    rw [Function.update_self]
    exact keeps _ intent
  · rw [Function.update_of_ne here]
    exact intent

theorem State.Owned.call_step {spurious : Bool} (owned : state.Owned)
    (stepped : state.call_step id spurious = some next) : next.Owned := by
  obtain ⟨call, calls, ⟨same, keeps⟩ | ⟨page, slot, entered, none_before, intent⟩ |
    ⟨page, slot, left, intent⟩⟩ := call_step_registry stepped
  · exact owned.keep keeps calls same
  · intro i present
    by_cases here : i = slot
    · refine ⟨id, page, ?_⟩
      rw [calls, Function.update_self, here]
      exact intent
    · rw [entered, Function.update_of_ne here] at present
      obtain ⟨owner, owned_page, owner_intent⟩ := owned i present
      refine ⟨owner, owned_page, ?_⟩
      have different : owner ≠ id := by
        rintro rfl
        rw [none_before] at owner_intent
        cases owner_intent
      rw [calls, Function.update_of_ne different]
      exact owner_intent
  · intro i present
    rw [left] at present
    have elsewhere : i ≠ slot := by
      rintro rfl
      rw [Function.update_self] at present
      exact present rfl
    rw [Function.update_of_ne elsewhere] at present
    obtain ⟨owner, owned_page, owner_intent⟩ := owned i present
    refine ⟨owner, owned_page, ?_⟩
    have different : owner ≠ id := by
      rintro rfl
      rw [intent] at owner_intent
      cases owner_intent
      exact elsewhere rfl
    rw [calls, Function.update_of_ne different]
    exact owner_intent

theorem State.Owned.step {action : Action Id} (owned : state.Owned)
    (stepped : state.step action = some next) : next.Owned := by
  cases action with
  | lock id path page =>
      obtain ⟨idle, rfl⟩ := lock_step stepped
      refine owned.keep ?_ rfl rfl
      intro entry intent
      rw [idle] at intent
      cases intent
  | repair id page =>
      simp only [State.step] at stepped
      split at stepped <;> cases stepped
      rename_i idle
      refine owned.keep ?_ rfl rfl
      intro entry intent
      rw [idle] at intent
      cases intent
  | call id spurious => exact owned.call_step stepped
  | unlock id =>
      obtain ⟨path, page, li_slot, holding, rfl⟩ := unlock_step stepped
      refine owned.keep ?_ rfl rfl
      intro entry intent
      rw [holding] at intent
      exact intent
  | resolved id encountered =>
      obtain ⟨page, li_slot, lock_value, resolving, rfl⟩ := resolved_step stepped
      refine owned.keep ?_ rfl rfl
      intro entry intent
      rw [resolving] at intent
      exact intent
  | own page =>
      cases stepped
      exact owned
  | disown page =>
      cases stepped
      exact owned

/-- A call that holds its lock stays where it is until its caller goes on, and
no other call moves. -/
theorem call_step_other {spurious : Bool} {other : Id}
    (stepped : state.call_step id spurious = some next) (different : other ≠ id) :
    next.calls other = state.calls other := by
  obtain ⟨call, calls, _⟩ := call_step_registry stepped
  rw [calls, Function.update_of_ne different]

end Entries

/-! ### A registry with more entries than clients -/

section Clients

variable {n : Nat} {state next : State (Fin n × Site)}

def State.Nested (state : State (Fin n × Site)) : Prop :=
  ∀ client, state.calls (client, .old) = .idle ∨
    ∃ path page li_slot, state.calls (client, .own) = .holding path page li_slot

theorem State.Nested.call {id : Fin n × Site} {spurious : Bool} (nested : state.Nested)
    (stepped : state.call_step id spurious = some next) : next.Nested := by
  intro client
  by_cases own_moves : id = (client, .own)
  · have still : state.calls (client, .old) = .idle := by
      rcases nested client with idle | ⟨path, page, li_slot, holding⟩
      · exact idle
      · have keeps : state.Keeps id page := ⟨path, li_slot, by rw [own_moves]; exact holding⟩
        rw [keeps.still] at stepped
        cases stepped
    left
    rw [call_step_other stepped (by rw [own_moves]; simp)]
    exact still
  · rw [call_step_other stepped (Ne.symm own_moves)]
    rcases nested client with idle | holding
    · by_cases old_moves : id = (client, .old)
      · rw [old_moves] at stepped
        simp only [State.call_step, idle] at stepped
        cases stepped
      · rw [call_step_other stepped (Ne.symm old_moves)]
        exact .inl idle
    · exact .inr holding

theorem State.Nested.step {action : Action (Fin n × Site)} (nested : state.Nested)
    (permitted : state.puts action = true) (stepped : state.step action = some next) :
    next.Nested := by
  cases action with
  | lock id path page =>
      obtain ⟨locker, site⟩ := id
      obtain ⟨idle, rfl⟩ := lock_step stepped
      intro client
      by_cases same : client = locker
      · subst same
        cases site with
        | own =>
            cases path with
            | put =>
                simp only [State.puts, decide_eq_true_eq] at permitted
                left
                simp [State.at, permitted.1]
            | update | free => cases permitted
        | old =>
            cases path with
            | free =>
                simp only [State.puts] at permitted
                split at permitted
                · rename_i own_path own li_slot holding
                  right
                  refine ⟨own_path, own, li_slot, ?_⟩
                  simp [State.at, holding]
                · cases permitted
            | put | update => cases permitted
      · have different : ∀ site', (client, site') ≠ (locker, site) := by
          intro site' together
          exact same (congrArg Prod.fst together)
        simp only [State.at, Function.update_of_ne (different _)]
        exact nested client
  | repair id page => cases permitted
  | call id spurious => exact nested.call stepped
  | unlock id =>
      obtain ⟨unlocker, site⟩ := id
      obtain ⟨path, page, li_slot, holding, rfl⟩ := unlock_step stepped
      intro client
      by_cases same : client = unlocker
      · subst same
        cases site with
        | own =>
            simp only [State.puts, decide_eq_true_eq] at permitted
            left
            simp [State.at, permitted]
        | old =>
            right
            rcases nested client with idle | still
            · rw [idle] at holding
              cases holding
            · simpa [State.at] using still
      · have different : ∀ site', (client, site') ≠ (unlocker, site) := by
          intro site' together
          exact same (congrArg Prod.fst together)
        simp only [State.at, Function.update_of_ne (different _)]
        exact nested client
  | resolved id encountered =>
      obtain ⟨resolver, site⟩ := id
      obtain ⟨page, li_slot, lock_value, resolving, rfl⟩ := resolved_step stepped
      cases site with
      | own => cases permitted
      | old =>
          intro client
          by_cases same : client = resolver
          · subst same
            right
            rcases nested client with idle | still
            · rw [idle] at resolving
              cases resolving
            · simpa [State.at] using still
          · have different : ∀ site', (client, site') ≠ (resolver, Site.old) := by
              intro site' together
              exact same (congrArg Prod.fst together)
            simp only [State.at, Function.update_of_ne (different _)]
            exact nested client
  | own page =>
      cases stepped
      exact nested
  | disown page =>
      cases stepped
      exact nested

theorem puts_step {action : Action (Fin n × Site)}
    (stepped : (puts n).step state action = some next) :
    state.puts action = true ∧ state.step action = some next := by
  simp only [Intents.puts, Machine.checked] at stepped
  split at stepped
  · exact ⟨‹_›, stepped⟩
  · cases stepped

theorem puts_reached (reached : (puts n).Reachable state) : state.Owned ∧ state.Nested := by
  apply reached.invariant
  · intro state opened
    constructor
    · intro i present
      exact absurd (opened.lock_intents i) present
    · intro client
      exact .inl (opened.calls _)
  · intro state action next both _ stepped
    obtain ⟨permitted, moved⟩ := puts_step stepped
    exact ⟨both.1.step moved, both.2.step permitted moved⟩

/-- A waiting client has at most the entry of its own page. -/
theorem waiting_entry {client : Fin n} {site : Site} {page : Page} {i : Nat}
    (nested : state.Nested)
    (waits : ∃ site, (state.calls (client, site)).publishing = true)
    (intent : (state.calls (client, site)).intent = some (page, i)) : site = .own := by
  cases site with
  | own => rfl
  | old =>
      obtain ⟨waiting, spins⟩ := waits
      rcases nested client with idle | ⟨path, own, li_slot, holding⟩
      · rw [idle] at intent
        cases intent
      · cases waiting with
        | own =>
            rw [holding] at spins
            cases spins
        | old =>
            rw [Call.publishing_intent spins] at intent
            cases intent

/-- All entries are taken, and each by another client. -/
theorem clients_of_deadlocked (reached : (puts n).Reachable state) (stuck : state.Deadlocked) :
    kLockIntentSlots ≤ n := by
  obtain ⟨owned, nested⟩ := puts_reached reached
  have taken : ∀ i : Fin kLockIntentSlots, ∃ client page,
      (state.calls (client, .own)).intent = some (page, i.val) := by
    intro i
    obtain ⟨⟨client, site⟩, page, intent⟩ := owned i (stuck.2 i i.isLt)
    have own := waiting_entry nested (stuck.1 client) intent
    rw [own] at intent
    exact ⟨client, page, intent⟩
  choose owner page intent using taken
  have injective : Function.Injective owner := by
    intro i j same
    have of_i := intent i
    rw [same, intent j] at of_i
    simp only [Option.some.injEq, Prod.mk.injEq] at of_i
    exact Fin.ext of_i.2.symm
  have bound := Fintype.card_le_of_injective owner injective
  rwa [Fintype.card_fin, Fintype.card_fin] at bound

end Clients

/-! ### As many clients as entries -/

section Filling

variable {n : Nat}

def nobody : State (Fin n × Site) := ⟨fun _ => 0#8, fun _ => 0, fun _ => .idle, fun _ => ⟨0, 0⟩⟩

theorem nobody_reached : (puts n).Reachable (nobody : State (Fin n × Site)) :=
  .start ⟨fun _ => rfl, fun _ => rfl, fun _ => rfl⟩

def page_of (client : Nat) : Page := ⟨(client + kLockIntentSlots) * 4096, by
  unfold kLockIntentSlots
  omega⟩

theorem old_page_nonnull : 4096 ≠ 0 := by
  decide

def old_page : Page := ⟨4096, old_page_nonnull⟩

theorem page_of_home {client : Nat} (inside : client < kLockIntentSlots) :
    (page_of client).home = client := by
  have slots : kLockIntentSlots - 1 = 2 ^ 7 - 1 := rfl
  have size : kLockIntentSlots = 128 := rfl
  simp only [Page.home, page_of]
  rw [slots, Nat.and_two_pow_sub_one_eq_mod, Nat.shiftRight_eq_div_pow]
  omega

theorem page_of_injective {first second : Nat} (same : page_of first = page_of second) :
    first = second := by
  have addresses := congrArg Page.address same
  simp only [page_of] at addresses
  omega

theorem old_page_ne (client : Nat) : old_page ≠ page_of client := by
  intro same
  have addresses := congrArg Page.address same
  have size : kLockIntentSlots = 128 := rfl
  simp only [page_of, old_page] at addresses
  omega

variable {state next : State (Fin n × Site)}

theorem puts_move {action : Action (Fin n × Site)} (reached : (puts n).Reachable state)
    (permitted : state.puts action = true) (stepped : state.step action = some next) :
    (puts n).Reachable next := by
  have moves : (puts n).step state action = some next := by
    simp only [Intents.puts, Machine.checked, permitted, if_true]
    exact stepped
  exact reached.move trivial moves

structure Locked (k : Nat) (state : State (Fin n × Site)) : Prop where
  holding : ∀ client : Fin n, client < k →
    state.calls (client, .own) = .holding .put (page_of client) client
  idle : ∀ client : Fin n, k ≤ client → state.calls (client, .own) = .idle
  old : ∀ client, state.calls (client, .old) = .idle
  taken : ∀ i < k, state.lock_intents i ≠ 0
  vacant : ∀ i, k ≤ i → state.lock_intents i = 0
  unlocked : ∀ client, k ≤ client → state.version_lock (page_of client) = 0#8

/-- Nobody has the page of the next client. -/
theorem Locked.apart {k : Nat} (locked : Locked k state) (client other : Fin n)
    (different : other ≠ client) :
    (state.calls (other, .own)).page ≠ some (page_of client) := by
  by_cases before : other.val < k
  · rw [locked.holding other before]
    intro same
    have together := page_of_injective (Option.some.inj same)
    exact different (Fin.ext together)
  · rw [locked.idle other (by omega)]
    exact fun impossible => nomatch impossible

theorem locked_reached (k : Nat) (enough : k ≤ kLockIntentSlots) (clients : k ≤ n) :
    ∃ state : State (Fin n × Site), (puts n).Reachable state ∧ Locked k state := by
  induction k with
  | zero =>
      refine ⟨nobody, nobody_reached, ?_⟩
      exact ⟨fun _ before => absurd before (Nat.not_lt_zero _), fun _ _ => rfl, fun _ => rfl,
        fun _ before => absurd before (Nat.not_lt_zero _), fun _ _ => rfl, fun _ _ => rfl⟩
  | succ k ih =>
      obtain ⟨state, reached, locked⟩ := ih (by omega) (by omega)
      let client : Fin n := ⟨k, clients⟩
      have home : (page_of k).home = k := page_of_home (Nat.lt_of_succ_le enough)
      have own : state.calls (client, .own) = .idle := locked.idle client (Nat.le_refl k)
      have permitted : state.puts (.lock (client, .own) .put (page_of k)) = true := by
        simp only [State.puts, decide_eq_true_eq]
        exact ⟨locked.old client, fun other different => locked.apart client other different⟩
      have vacant : state.lock_intents k = 0 := locked.vacant k (Nat.le_refl k)
      have free : state.version_lock (page_of k) = 0#8 := locked.unlocked k (Nat.le_refl k)
      let publishing := state.at (client, .own) (.publish .put (page_of k) k)
      let loading := (publishing.set_intent k (page_of k).address).at (client, .own)
        (.load .put (page_of k) k)
      let exchanging := loading.at (client, .own)
        (.exchange .put (page_of k) k (version_lock_t.unlocked 0#8) 0)
      let holding := (exchanging.set_lock (page_of k) (version_lock_t.unlocked 0#8 + 1#8)
        (state.seen (page_of k))).at (client, .own) (.holding .put (page_of k) k)
      have published : (puts n).Reachable publishing := by
        apply puts_move reached permitted
        simp only [State.step, own, home]
        rfl
      have entered : (puts n).Reachable loading := by
        apply @puts_move n _ _ (.call (client, .own) false) published rfl
        simp [State.step, State.call_step, publishing, State.at, vacant, loading,
          State.set_intent]
      have loaded : (puts n).Reachable exchanging := by
        apply @puts_move n _ _ (.call (client, .own) false) entered rfl
        simp [State.step, State.call_step, publishing, State.at, loading, State.set_intent,
          exchanging, free]
      have held : (puts n).Reachable holding := by
        apply @puts_move n _ _ (.call (client, .own) false) loaded rfl
        simp [State.step, State.call_step, publishing, State.at, loading, State.set_intent,
          exchanging, free, holding, State.set_lock, version_lock_t.unlocked]
      have calls : holding.calls = Function.update state.calls (client, .own)
          (.holding .put (page_of k) k) := by
        simp [publishing, State.at, loading, State.set_intent, exchanging, holding,
          State.set_lock]
      have intents : holding.lock_intents =
          Function.update state.lock_intents k (page_of k).address := rfl
      have locks : holding.version_lock = Function.update state.version_lock (page_of k)
          (version_lock_t.unlocked 0#8 + 1#8) := rfl
      refine ⟨holding, held, ?_⟩
      constructor
      · intro other before
        by_cases here : other = client
        · rw [calls, here, Function.update_self]
        · have earlier : other.val < k := by
            have different : other.val ≠ k := fun same => here (Fin.ext same)
            omega
          rw [calls, Function.update_of_ne (by simpa using here)]
          exact locked.holding other earlier
      · intro other beyond
        have here : other ≠ client := by
          rintro rfl
          exact absurd beyond (Nat.not_succ_le_self k)
        rw [calls, Function.update_of_ne (by simpa using here)]
        exact locked.idle other (by omega)
      · intro other
        rw [calls, Function.update_of_ne (by simp)]
        exact locked.old other
      · intro i before
        rw [intents]
        by_cases here : i = k
        · rw [here, Function.update_self]
          exact (page_of k).nonnull
        · rw [Function.update_of_ne here]
          exact locked.taken i (by omega)
      · intro i beyond
        rw [intents, Function.update_of_ne (by omega)]
        exact locked.vacant i (by omega)
      · intro other beyond
        have elsewhere : page_of other ≠ page_of k := by
          intro same
          have together := page_of_injective same
          omega
        rw [locks, Function.update_of_ne elsewhere]
        exact locked.unlocked other (by omega)

/-- The first `k` clients wait: those that hold their pages for the entry of an
old page, the others for that of their own. -/
structure Waiting (k : Nat) (state : State (Fin n × Site)) : Prop where
  holding : ∀ client : Fin n, client < kLockIntentSlots →
    state.calls (client, .own) = .holding .put (page_of client) client
  freeing : ∀ client : Fin n, client < kLockIntentSlots → client < k →
    state.calls (client, .old) = .publish .free old_page old_page.home
  publishing : ∀ client : Fin n, kLockIntentSlots ≤ client → client < k →
    state.calls (client, .own) = .publish .put (page_of client) (page_of client).home
  own : ∀ client : Fin n, kLockIntentSlots ≤ client → k ≤ client →
    state.calls (client, .own) = .idle
  old : ∀ client : Fin n, k ≤ client ∨ kLockIntentSlots ≤ client →
    state.calls (client, .old) = .idle
  taken : ∀ i < kLockIntentSlots, state.lock_intents i ≠ 0

theorem Waiting.apart {k : Nat} (waiting : Waiting k state) (client other : Fin n)
    (different : other ≠ client) :
    (state.calls (other, .own)).page ≠ some (page_of client) := by
  by_cases holds : other.val < kLockIntentSlots
  · rw [waiting.holding other holds]
    intro same
    exact different (Fin.ext (page_of_injective (Option.some.inj same)))
  · by_cases before : other.val < k
    · rw [waiting.publishing other (by omega) before]
      intro same
      exact different (Fin.ext (page_of_injective (Option.some.inj same)))
    · rw [waiting.own other (by omega) (by omega)]
      exact fun impossible => nomatch impossible

theorem waiting_reached (enough : kLockIntentSlots ≤ n) (k : Nat) (clients : k ≤ n) :
    ∃ state : State (Fin n × Site), (puts n).Reachable state ∧ Waiting k state := by
  induction k with
  | zero =>
      obtain ⟨state, reached, locked⟩ := locked_reached kLockIntentSlots (Nat.le_refl _) enough
      refine ⟨state, reached, ?_⟩
      exact ⟨locked.holding, fun _ _ before => absurd before (Nat.not_lt_zero _),
        fun _ _ before => absurd before (Nat.not_lt_zero _), fun client beyond _ =>
          locked.idle client beyond, fun client _ => locked.old client, locked.taken⟩
  | succ k ih =>
      obtain ⟨state, reached, waiting⟩ := ih (by omega)
      let client : Fin n := ⟨k, clients⟩
      have old : state.calls (client, .old) = .idle := waiting.old client (.inl (Nat.le_refl k))
      by_cases holds : k < kLockIntentSlots
      · have permitted : state.puts (.lock (client, .old) .free old_page) = true := by
          simp only [State.puts, waiting.holding client holds, decide_eq_true_eq]
          exact old_page_ne k
        refine ⟨state.at (client, .old) (.publish .free old_page old_page.home),
          puts_move reached permitted (by simp only [State.step, old]), ?_⟩
        constructor
        · intro other holds
          simp only [State.at]
          rw [Function.update_of_ne (by simp)]
          exact waiting.holding other holds
        · intro other holds before
          simp only [State.at]
          by_cases here : other = client
          · rw [here, Function.update_self]
          · have different : other.val ≠ k := fun same => here (Fin.ext same)
            rw [Function.update_of_ne (by simpa using here)]
            exact waiting.freeing other holds (by omega)
        · intro other beyond before
          simp only [State.at]
          rw [Function.update_of_ne (by simp)]
          exact waiting.publishing other beyond (by omega)
        · intro other beyond after
          simp only [State.at]
          rw [Function.update_of_ne (by simp)]
          exact waiting.own other beyond (by omega)
        · intro other idle
          have here : other ≠ client := by
            rintro rfl
            rcases idle with after | beyond
            · exact absurd after (Nat.not_succ_le_self k)
            · exact absurd beyond (Nat.not_le_of_lt holds)
          simp only [State.at]
          rw [Function.update_of_ne (by simpa using here)]
          exact waiting.old other (idle.imp_left (by omega))
        · exact waiting.taken
      · have own : state.calls (client, .own) = .idle :=
          waiting.own client (Nat.le_of_not_lt holds) (Nat.le_refl k)
        have permitted : state.puts (.lock (client, .own) .put (page_of k)) = true := by
          simp only [State.puts, decide_eq_true_eq]
          exact ⟨old, fun other different => waiting.apart client other different⟩
        refine ⟨state.at (client, .own) (.publish .put (page_of k) (page_of k).home),
          puts_move reached permitted (by simp only [State.step, own]), ?_⟩
        constructor
        · intro other holds_other
          have here : other ≠ client := by
            rintro rfl
            exact holds holds_other
          simp only [State.at]
          rw [Function.update_of_ne (by simpa using here)]
          exact waiting.holding other holds_other
        · intro other holds_other before
          simp only [State.at]
          rw [Function.update_of_ne (by simp)]
          exact waiting.freeing other holds_other (by omega)
        · intro other beyond before
          simp only [State.at]
          by_cases here : other = client
          · rw [here, Function.update_self]
          · have different : other.val ≠ k := fun same => here (Fin.ext same)
            rw [Function.update_of_ne (by simpa using here)]
            exact waiting.publishing other beyond (by omega)
        · intro other beyond after
          have here : other ≠ client := by
            rintro rfl
            exact absurd after (Nat.not_succ_le_self k)
          simp only [State.at]
          rw [Function.update_of_ne (by simpa using here)]
          exact waiting.own other beyond (by omega)
        · intro other idle
          simp only [State.at]
          rw [Function.update_of_ne (by simp)]
          exact waiting.old other (idle.imp_left (by omega))
        · exact waiting.taken

theorem deadlocked_reached (enough : kLockIntentSlots ≤ n) :
    ∃ state : State (Fin n × Site), (puts n).Reachable state ∧ state.Deadlocked := by
  obtain ⟨state, reached, waiting⟩ := waiting_reached enough n (Nat.le_refl n)
  refine ⟨state, reached, ?_, waiting.taken⟩
  intro client
  by_cases holds : client.val < kLockIntentSlots
  · refine ⟨.old, ?_⟩
    rw [waiting.freeing client holds client.isLt]
    rfl
  · refine ⟨.own, ?_⟩
    rw [waiting.publishing client (by omega) client.isLt]
    rfl

/-- The registry of 128 entries is safe for fewer clients than that. -/
theorem registry_never_full_of_waiters (n : Nat) :
    (∀ state, (puts n).Reachable state → ¬state.Deadlocked) ↔ n < kLockIntentSlots := by
  constructor
  · intro safe
    by_contra many
    obtain ⟨state, reached, stuck⟩ := deadlocked_reached (Nat.le_of_not_lt many)
    exact safe state reached stuck
  · intro few state reached stuck
    have many := clients_of_deadlocked reached stuck
    omega

theorem registry_full_of_waiters :
    kLockIntentSlots ≤ Frontier.kMaxClientSlots ∧
      ∃ state, (puts kLockIntentSlots).Reachable state ∧ state.Deadlocked :=
  ⟨by decide, deadlocked_reached (Nat.le_refl _)⟩

end Filling

end Hiom.Viper.Intents
