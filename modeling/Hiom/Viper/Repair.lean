import Hiom.Viper.Intents

/-!
When the repair of a lock takes it from nobody.
-/

namespace Hiom.Viper.Intents

variable {Id : Type} {state next : State Id} {id : Id} {page : Page} {clean : Page → Prop}

/-- Fewer than 32 lock and unlock cycles complete between the reload of a repair
and its compare-and-swap. -/
def State.Few (state : State Id) : Action Id → Prop
  | .call id _ => ∀ page seen, state.Repairing id page seen →
      (state.seen page).unlocks - seen.unlocks < 32
  | _ => True

/-- Nobody else has repaired the lock since the reload of a repair that is about
to succeed. -/
def State.Alone (state : State Id) : Action Id → Prop
  | .call id _ => ∀ page seen, state.Repairing id page seen →
      (state.seen page).repairs = seen.repairs
  | _ => True

def Counts (lv lock : version_lock_t) (cycles : Nat) : Prop :=
  (lock.version + if lock.is_locked then 0 else 1) % 64 = (lv.version + 2 * cycles) % 64

theorem Counts.lock {lv lock : version_lock_t} {cycles : Nat} (counts : Counts lv lock cycles)
    (free : lock.is_locked = false) : Counts lv (lock + 1#8) cycles := by
  obtain ⟨version, locked⟩ := version_lock_t.locked_version free
  unfold Counts at counts ⊢
  rw [version, locked, if_pos rfl]
  simpa only [free, Bool.false_eq_true, if_false] using counts

theorem Counts.congr {lv lock other : version_lock_t} {cycles : Nat} (counts : Counts lv lock cycles)
    (same : lock.version = other.version) : Counts lv other cycles := by
  unfold Counts at counts ⊢
  rw [← same, ← version_lock_t.locked_congr same]
  exact counts

theorem Counts.unlock {lv lock : version_lock_t} {cycles : Nat} (counts : Counts lv lock cycles)
    (locked : lock.is_locked = true) : Counts lv lock.released (cycles + 1) := by
  have odd := (version_lock_t.locked_iff lock).mp locked
  have version := version_lock_t.released_version lock
  have free := version_lock_t.released_free locked
  unfold Counts at counts ⊢
  rw [version, free]
  simp only [locked, if_true, Bool.false_eq_true, if_false] at counts ⊢
  omega

/-- The version of a lock that is `lv` again has gone all the way round, or not
gone on. -/
theorem Counts.again {lv : version_lock_t} {cycles : Nat} (counts : Counts lv lv cycles)
    (locked : lv.is_locked = true) (few : cycles < 32) : cycles = 0 := by
  have small := lv.version_lt
  unfold Counts at counts
  simp only [locked, if_true] at counts
  omega

/-- What the second scan knows. As long as nobody has unlocked or repaired the
lock, it is what the repair has loaded, and the scan has yet to come to the
intent of whoever holds it. -/
structure Rescanned (state : State Id) (page : Page) (lv : version_lock_t) (seen : Seen)
    (i : Nat) : Prop where
  locked : lv.is_locked = true
  unlocks : seen.unlocks ≤ (state.seen page).unlocks
  repairs : seen.repairs ≤ (state.seen page).repairs
  counts : (state.seen page).repairs = seen.repairs →
    Counts lv (state.version_lock page) ((state.seen page).unlocks - seen.unlocks)
  passed : state.seen page = seen → (state.version_lock page).version = lv.version ∧
    ∀ id li_slot, (state.calls id).held = some (page, li_slot) → i ≤ li_slot

def After.Sound : After → Prop
  | .finish => True
  | .retry lock_value _ => lock_value.is_locked = false

def Call.Sound (state : State Id) : Call → Prop
  | .publish _ _ i => i < kLockIntentSlots
  | .exchange _ _ _ lock_value _ | .resolve _ _ lock_value | .withdraw _ _ lock_value _ =>
      lock_value.is_locked = false
  | .unlocking _ page _ current_version =>
      (state.version_lock page).version = current_version.version
  | .repair _ after | .scan _ after _ | .reload _ after => after.Sound
  | .rescan page after lv seen i => after.Sound ∧ Rescanned state page lv seen i
  | .republish _ lock_value _ i => lock_value.is_locked = false ∧ i < kLockIntentSlots
  | _ => True

/-- The pages that are `clean` start without a stale lock. -/
structure Sound (clean : Page → Prop) (state : State Id) : Prop where
  published : ∀ id page li_slot, (state.calls id).intent = some (page, li_slot) →
    state.lock_intents li_slot = page.address
  inside : ∀ id page li_slot, (state.calls id).intent = some (page, li_slot) →
    li_slot < kLockIntentSlots
  distinct : ∀ id other page page' li_slot, (state.calls id).intent = some (page, li_slot) →
    (state.calls other).intent = some (page', li_slot) → id = other
  locked : ∀ id page, state.Holds id page → (state.version_lock page).is_locked = true
  alone : ∀ id other page, state.Holds id page → state.Holds other page → id = other
  live : ∀ page, (state.version_lock page).is_locked = true →
    (state.seen page).repairs ≠ 0 ∨ clean page → ∃ id, state.Holds id page
  calls : ∀ id, (state.calls id).Sound state

theorem Call.held_intent {call : Call} {entry : Page × Nat} (held : call.held = some entry) :
    call.intent = some entry := by
  cases call <;> first | exact held | cases held

theorem home_lt (page : Page) : page.home < kLockIntentSlots :=
  Nat.lt_of_le_of_lt Nat.and_le_right (by decide)

theorem After.Sound.call {after : After} (sound : after.Sound) (state : State Id) (page : Page) :
    (after.call page).Sound state ∧ (after.call page).intent = none ∧
      (after.call page).held = none := by
  cases after with
  | finish => exact ⟨trivial, rfl, rfl⟩
  | retry lock_value encountered => exact ⟨⟨sound, home_lt page⟩, rfl, rfl⟩

theorem Call.failed_keeps (path : Path) (page : Page) (li_slot : Nat) (found : version_lock_t)
    (retries : Nat) :
    (Call.failed path page li_slot found retries).Sound state ∧
      (Call.failed path page li_slot found retries).intent = some (page, li_slot) ∧
      (Call.failed path page li_slot found retries).held = none := by
  have free := version_lock_t.unlocked_free found
  cases path with
  | put => exact ⟨free, rfl, rfl⟩
  | update => exact ⟨trivial, rfl, rfl⟩
  | free =>
    simp only [Call.failed]
    split
    · exact ⟨free, rfl, rfl⟩
    · exact ⟨free, rfl, rfl⟩

/-- What a step does to the lock of a page matters to the calls that hold it or
have scanned for it. -/
theorem Call.Sound.change {call : Call} (sound : call.Sound state)
    (locks : ∀ other, other ≠ page → next.version_lock other = state.version_lock other)
    (seen : ∀ other, other ≠ page → next.seen other = state.seen other)
    (held : ∀ id other li_slot, other ≠ page → (next.calls id).held = some (other, li_slot) →
      (state.calls id).held = some (other, li_slot))
    (holder : ∀ li_slot, call.held = some (page, li_slot) →
      (next.version_lock page).version = (state.version_lock page).version)
    (rescanned : ∀ after lv seen i, call = .rescan page after lv seen i →
      Rescanned state page lv seen i → Rescanned next page lv seen i) :
    call.Sound next := by
  cases call with
  | unlocking path other li_slot current_version =>
    by_cases here : other = page
    · subst here
      exact (holder li_slot rfl).trans sound
    · exact (congrArg version_lock_t.version (locks other here)).trans sound
  | rescan other after lv before i =>
    refine ⟨sound.1, ?_⟩
    by_cases here : other = page
    · subst here
      exact rescanned _ _ _ _ rfl sound.2
    · obtain ⟨locked, unlocks, repairs, counts, passed⟩ := sound.2
      rw [← seen other here] at unlocks repairs counts passed
      rw [← locks other here] at counts passed
      exact ⟨locked, unlocks, repairs, counts, fun same =>
        ⟨(passed same).1, fun id li_slot holds => (passed same).2 id li_slot
          (held id other li_slot here holds)⟩⟩
  | _ => exact sound

/-- As `Call.Sound.change`, where no lock changes hands. -/
theorem Call.Sound.keep {call : Call} (sound : call.Sound state)
    (locks : ∀ page, (next.version_lock page).version = (state.version_lock page).version)
    (seen : next.seen = state.seen)
    (held : ∀ id, (next.calls id).held = (state.calls id).held) : call.Sound next := by
  cases call with
  | unlocking => exact (locks _).trans sound
  | rescan other after lv before i =>
    refine ⟨sound.1, ?_⟩
    obtain ⟨locked, unlocks, repairs, counts, passed⟩ := sound.2
    refine ⟨locked, ?_, ?_, ?_, ?_⟩
    · rwa [seen]
    · rwa [seen]
    · rw [seen]
      exact fun unrepaired => (counts unrepaired).congr (locks other).symm
    · simpa only [seen, locks, held] using passed
  | _ => exact sound

/-- A repair that nobody else has come before takes the lock from nobody. -/
theorem Sound.repairing {seen : Seen} (sound : Sound clean state)
    (repairing : state.Repairing id page seen)
    (few : (state.seen page).unlocks - seen.unlocks < 32) :
    (∀ other, ¬state.Holds other page) ↔ (state.seen page).repairs = seen.repairs := by
  obtain ⟨after, lv, i, stage, done, found⟩ := repairing
  have rescanned : Rescanned state page lv seen i := by
    have valid := sound.calls id
    rw [stage] at valid
    exact valid.2
  constructor
  · intro nobody
    by_contra different
    have repairs := rescanned.repairs
    obtain ⟨holder, holds⟩ := sound.live page (found ▸ rescanned.locked) (by omega)
    exact nobody holder holds
  · rintro same other ⟨li_slot, held⟩
    have counts := rescanned.counts same
    rw [found] at counts
    have none_since := counts.again rescanned.locked few
    have unlocks := rescanned.unlocks
    have exactly_seen : state.seen page = seen := by
      cases seen
      cases here : state.seen page
      simp only [here, Seen.mk.injEq] at same unlocks none_since ⊢
      omega
    have ahead := (rescanned.passed exactly_seen).2 other li_slot held
    have inside := sound.inside other page li_slot (Call.held_intent held)
    omega

variable [DecidableEq Id]

/-! ### Steps on the registry -/

/-- A step that changes the registry at most. -/
theorem Sound.quiet {call : Call} (sound : Sound clean state)
    (calls : next.calls = Function.update state.calls id call)
    (locks : next.version_lock = state.version_lock) (seen : next.seen = state.seen)
    (held : call.held = (state.calls id).held) (valid : call.Sound state)
    (published : ∀ other page li_slot, (next.calls other).intent = some (page, li_slot) →
      next.lock_intents li_slot = page.address ∧ li_slot < kLockIntentSlots)
    (distinct : ∀ other page page' li_slot, (next.calls id).intent = some (page, li_slot) →
      (next.calls other).intent = some (page', li_slot) → id = other) : Sound clean next := by
  have mine : next.calls id = call := by rw [calls, Function.update_self]
  have theirs : ∀ other, other ≠ id → next.calls other = state.calls other :=
    fun other away => by rw [calls, Function.update_of_ne away]
  have helds : ∀ other, (next.calls other).held = (state.calls other).held := by
    intro other
    by_cases here : other = id
    · rw [here, mine, held]
    · rw [theirs other here]
  have holds : ∀ other page, next.Holds other page ↔ state.Holds other page := by
    intro other page
    simp only [State.Holds, helds]
  refine ⟨fun other page li_slot intent => (published other page li_slot intent).1,
    fun other page li_slot intent => (published other page li_slot intent).2,
    fun one other page page' li_slot intent same => ?_, fun other page holding => ?_,
    fun one other page first second => ?_, fun page locked repaired => ?_, fun other => ?_⟩
  · by_cases here : one = id
    · subst here
      exact distinct other page page' li_slot intent same
    · by_cases there : other = id
      · subst there
        exact (distinct one page' page li_slot same intent).symm
      · rw [theirs one here] at intent
        rw [theirs other there] at same
        exact sound.distinct one other page page' li_slot intent same
  · rw [locks]
    exact sound.locked other page ((holds other page).mp holding)
  · exact sound.alone one other page ((holds one page).mp first) ((holds other page).mp second)
  · rw [locks] at locked
    rw [seen] at repaired
    obtain ⟨holder, holding⟩ := sound.live page locked repaired
    exact ⟨holder, (holds holder page).mpr holding⟩
  · have same : (next.calls other).Sound state := by
      by_cases here : other = id
      · rw [here, mine]
        exact valid
      · rw [theirs other here]
        exact sound.calls other
    exact same.keep (fun page => by rw [locks]) seen helds

theorem at_intent {call : Call} (intent : call.intent = (state.calls id).intent) (other : Id) :
    ((state.at id call).calls other).intent = (state.calls other).intent := by
  simp only [State.at, Function.update_apply]
  split
  · rename_i here
    rw [intent, here]
  · rfl

/-- A step of a call that keeps its intent and its lock. -/
theorem Sound.moved {call : Call} (sound : Sound clean state)
    (intent : call.intent = (state.calls id).intent) (held : call.held = (state.calls id).held)
    (valid : call.Sound state) : Sound clean (state.at id call) := by
  have intents := at_intent intent
  refine sound.quiet rfl rfl rfl held valid (fun other page li_slot entry => ?_)
    (fun other page page' li_slot entry same => ?_)
  · rw [intents other] at entry
    exact ⟨sound.published other page li_slot entry, sound.inside other page li_slot entry⟩
  · rw [intents id] at entry
    rw [intents other] at same
    exact sound.distinct id other page page' li_slot entry same

/-- The intent goes into a slot of the registry that is empty. -/
theorem Sound.publish {call : Call} {i : Nat} (sound : Sound clean state)
    (intent : call.intent = some (page, i)) (unheld : call.held = none)
    (fresh : (state.calls id).held = none) (valid : call.Sound state)
    (empty : state.lock_intents i = 0) (inside : i < kLockIntentSlots) :
    Sound clean ((state.set_intent i page.address).at id call) := by
  have others : ∀ other page li_slot, (state.calls other).intent = some (page, li_slot) →
      li_slot ≠ i := by
    rintro other page li_slot entry rfl
    exact page.nonnull ((sound.published other page li_slot entry).symm.trans empty)
  refine sound.quiet rfl rfl rfl (unheld.trans fresh.symm) valid
    (fun other here li_slot entry => ?_) (fun other here there li_slot entry same => ?_)
  · simp only [State.at, Function.update_apply] at entry
    simp only [State.at, State.set_intent, Function.update_apply]
    split at entry
    · cases intent.symm.trans entry
      exact ⟨if_pos rfl, inside⟩
    · rw [if_neg (others other here li_slot entry)]
      exact ⟨sound.published other here li_slot entry, sound.inside other here li_slot entry⟩
  · simp only [State.at, Function.update_self] at entry
    simp only [State.at, State.set_intent, Function.update_apply] at same
    cases intent.symm.trans entry
    split at same
    · rename_i here
      exact here.symm
    · exact absurd rfl (others other there i same)

/-- The intent goes out of the registry. -/
theorem Sound.withdraw {call : Call} {li_slot : Nat} (sound : Sound clean state)
    (intent : (state.calls id).intent = some (page, li_slot)) (none_now : call.intent = none)
    (unheld : (state.calls id).held = none) (valid : call.Sound state) :
    Sound clean ((state.set_intent li_slot 0).at id call) := by
  have held : call.held = none := by
    cases stage : call.held with
    | none => rfl
    | some entry =>
      rw [Call.held_intent stage] at none_now
      cases none_now
  refine sound.quiet rfl rfl rfl (held.trans unheld.symm) valid
    (fun other here i entry => ?_) (fun other here there i entry same => ?_)
  · simp only [State.at, Function.update_apply] at entry
    simp only [State.at, State.set_intent, Function.update_apply]
    split at entry
    · rw [none_now] at entry
      cases entry
    · rename_i away
      have apart : i ≠ li_slot := by
        rintro rfl
        exact away (sound.distinct id other page here i intent entry).symm
      rw [if_neg apart]
      exact ⟨sound.published other here i entry, sound.inside other here i entry⟩
  · simp only [State.at, Function.update_self] at entry
    rw [none_now] at entry
    cases entry

/-! ### Steps on a lock -/

/-- What every step that changes the lock of a page has to show. -/
theorem Sound.set_lock {call : Call} {lock : version_lock_t} {after : Seen} (sound : Sound clean state)
    (intent : call.intent = (state.calls id).intent)
    (valid : call.Sound ((state.set_lock page lock after).at id call))
    (mine : ∀ other li_slot, call.held = some (other, li_slot) → other = page)
    (mine_before : ∀ other li_slot, (state.calls id).held = some (other, li_slot) → other = page)
    (others : ∀ other, other ≠ id → ¬state.Holds other page)
    (locked : (∃ li_slot, call.held = some (page, li_slot)) ↔ lock.is_locked = true)
    (rescanned : ∀ lv seen i, Rescanned state page lv seen i →
      Rescanned ((state.set_lock page lock after).at id call) page lv seen i) :
    Sound clean ((state.set_lock page lock after).at id call) := by
  have intents := at_intent intent
  have at_id : ((state.set_lock page lock after).at id call).calls id = call :=
    Function.update_self ..
  have at_other : ∀ other, other ≠ id →
      ((state.set_lock page lock after).at id call).calls other = state.calls other :=
    fun other away => Function.update_of_ne away ..
  have word : ((state.set_lock page lock after).at id call).version_lock page = lock :=
    Function.update_self ..
  have words : ∀ other, other ≠ page →
      ((state.set_lock page lock after).at id call).version_lock other =
        state.version_lock other := fun other away => Function.update_of_ne away ..
  have counts : ∀ other, other ≠ page →
      ((state.set_lock page lock after).at id call).seen other = state.seen other :=
    fun other away => Function.update_of_ne away ..
  have elsewhere : ∀ other there li_slot, there ≠ page →
      ((((state.set_lock page lock after).at id call).calls other).held = some (there, li_slot) ↔
        (state.calls other).held = some (there, li_slot)) := by
    intro other there li_slot away
    by_cases here : other = id
    · subst here
      rw [at_id]
      exact iff_of_false (fun held => away (mine there li_slot held))
        (fun held => away (mine_before there li_slot held))
    · rw [at_other other here]
  refine ⟨fun other there li_slot entry => ?_, fun other there li_slot entry => ?_,
    fun one other there there' li_slot first second => ?_, fun other there holding => ?_,
    fun one other there first second => ?_, fun there set repaired => ?_, fun other => ?_⟩
  · exact sound.published other there li_slot ((intents other).symm.trans entry)
  · exact sound.inside other there li_slot ((intents other).symm.trans entry)
  · exact sound.distinct one other there there' li_slot ((intents one).symm.trans first)
      ((intents other).symm.trans second)
  · obtain ⟨li_slot, held⟩ := holding
    by_cases here : there = page
    · subst here
      rw [word]
      refine locked.mp ⟨li_slot, ?_⟩
      by_cases acting : other = id
      · rwa [acting, at_id] at held
      · rw [at_other other acting] at held
        exact absurd ⟨li_slot, held⟩ (others other acting)
    · rw [words there here]
      exact sound.locked other there ⟨li_slot, (elsewhere other there li_slot here).mp held⟩
  · obtain ⟨li_slot, first⟩ := first
    obtain ⟨li_slot', second⟩ := second
    by_cases here : there = page
    · subst here
      have acting : ∀ other li_slot,
          (((state.set_lock there lock after).at id call).calls other).held =
            some (there, li_slot) → other = id := by
        intro other li_slot held
        by_contra away
        rw [at_other other away] at held
        exact others other away ⟨li_slot, held⟩
      rw [acting one li_slot first, acting other li_slot' second]
    · exact sound.alone one other there ⟨li_slot, (elsewhere one there li_slot here).mp first⟩
        ⟨li_slot', (elsewhere other there li_slot' here).mp second⟩
  · by_cases here : there = page
    · subst here
      rw [word] at set
      obtain ⟨li_slot, held⟩ := locked.mpr set
      exact ⟨id, li_slot, by rw [at_id, held]⟩
    · rw [words there here] at set
      rw [counts there here] at repaired
      obtain ⟨holder, li_slot, held⟩ := sound.live there set repaired
      exact ⟨holder, li_slot, (elsewhere holder there li_slot here).mpr held⟩
  · by_cases acting : other = id
    · rw [acting, at_id]
      exact valid
    · rw [at_other other acting]
      refine (sound.calls other).change words counts
        (fun other there li_slot away => (elsewhere other there li_slot away).mp)
        (fun li_slot held => absurd ⟨li_slot, held⟩ (others other acting))
        (fun _ lv seen i _ => rescanned lv seen i)

theorem Sound.acquire {path : Path} {li_slot retries : Nat} {lock_value : version_lock_t}
    (sound : Sound clean state) (stage : state.calls id = .exchange path page li_slot lock_value retries)
    (found : state.version_lock page = lock_value) :
    Sound clean ((state.set_lock page (lock_value + 1#8) (state.seen page)).at id
      (.holding path page li_slot)) := by
  have free : lock_value.is_locked = false := by
    have valid := sound.calls id
    rwa [stage] at valid
  have nobody : ∀ other, ¬state.Holds other page := by
    intro other holds
    have set := sound.locked other page holds
    rw [found, free] at set
    cases set
  refine sound.set_lock ?_ trivial ?_ ?_ (fun other _ => nobody other) ?_ ?_
  · rw [stage]
    rfl
  · intro other slot held
    cases held
    rfl
  · intro other slot held
    rw [stage] at held
    cases held
  · exact iff_of_true ⟨li_slot, rfl⟩ (version_lock_t.locked_version free).2
  · intro lv seen i before
    refine ⟨before.locked, ?_, ?_, ?_, ?_⟩
    · simpa only [State.at, State.set_lock, Function.update_self] using before.unlocks
    · simpa only [State.at, State.set_lock, Function.update_self] using before.repairs
    · simp only [State.at, State.set_lock, Function.update_self]
      intro same
      have counts := before.counts same
      rw [found] at counts
      exact counts.lock free
    · simp only [State.at, State.set_lock, Function.update_self]
      intro same
      have still := version_lock_t.locked_congr (before.passed same).1
      rw [found, free, before.locked] at still
      cases still

theorem Sound.release {path : Path} {li_slot : Nat} {current_version : version_lock_t}
    (sound : Sound clean state) (stage : state.calls id = .unlocking path page li_slot current_version) :
    Sound clean ((state.set_lock page current_version.released
      { state.seen page with unlocks := (state.seen page).unlocks + 1 }).at id
        (.clear page li_slot)) := by
  have mine : state.Holds id page := ⟨li_slot, by rw [stage]; rfl⟩
  have found : (state.version_lock page).version = current_version.version := by
    have valid := sound.calls id
    rwa [stage] at valid
  have set : current_version.is_locked = true :=
    (version_lock_t.locked_congr found).symm.trans (sound.locked id page mine)
  refine sound.set_lock ?_ trivial ?_ ?_ (fun other away holds => ?_) ?_ ?_
  · rw [stage]
    rfl
  · intro other slot held
    cases held
  · intro other slot held
    rw [stage] at held
    cases held
    rfl
  · exact away (sound.alone other id page holds mine)
  · refine iff_of_false (fun held => ?_) (Bool.eq_false_iff.mp (version_lock_t.released_free set))
    obtain ⟨slot, held⟩ := held
    cases held
  · intro lv seen i before
    have unlocks := before.unlocks
    refine ⟨before.locked, ?_, ?_, ?_, ?_⟩
    · simp only [State.at, State.set_lock, Function.update_self]
      omega
    · simpa only [State.at, State.set_lock, Function.update_self] using before.repairs
    · simp only [State.at, State.set_lock, Function.update_self]
      intro same
      rw [Nat.sub_add_comm unlocks]
      exact ((before.counts same).congr found).unlock set
    · simp only [State.at, State.set_lock, Function.update_self]
      intro same
      have more := congrArg Seen.unlocks same
      simp only at more
      omega

theorem Sound.repaired {after : After} {lv : version_lock_t} (sound : Sound clean state)
    (valid : after.Sound) (fresh : (state.calls id).intent = none)
    (nobody : ∀ other, ¬state.Holds other page) :
    Sound clean ((state.set_lock page lv.unlocked
      { state.seen page with repairs := (state.seen page).repairs + 1 }).at id
        (after.call page)) := by
  obtain ⟨call_valid, intent, held⟩ := valid.call ((state.set_lock page lv.unlocked
    { state.seen page with repairs := (state.seen page).repairs + 1 }).at id (after.call page)) page
  refine sound.set_lock (intent.trans fresh.symm) call_valid ?_ ?_ (fun other _ => nobody other)
    ?_ ?_
  · intro other slot holding
    cases held.symm.trans holding
  · intro other slot holding
    cases fresh.symm.trans (Call.held_intent holding)
  · refine iff_of_false (fun holding => ?_)
      (Bool.eq_false_iff.mp (version_lock_t.unlocked_free lv))
    obtain ⟨slot, holding⟩ := holding
    cases held.symm.trans holding
  · intro lv seen i before
    have repairs := before.repairs
    refine ⟨before.locked, ?_, ?_, ?_, ?_⟩
    · simpa only [State.at, State.set_lock, Function.update_self] using before.unlocks
    · simp only [State.at, State.set_lock, Function.update_self]
      omega
    · simp only [State.at, State.set_lock, Function.update_self]
      intro same
      omega
    · simp only [State.at, State.set_lock, Function.update_self]
      intro same
      have more := congrArg Seen.repairs same
      simp only at more
      omega

theorem Sound.call_step {spurious : Bool} (sound : Sound clean state)
    (few : state.Few (.call id spurious))
    (first : state.Alone (.call id spurious))
    (stepped : state.call_step id spurious = some next) : Sound clean next := by
  have valid := sound.calls id
  simp only [State.call_step] at stepped
  split at stepped <;> rename_i stage <;> rw [stage] at valid
  · cases stepped
  · cases stepped
  · cases stepped
  · -- publish
    split at stepped <;> cases stepped
    · rename_i empty
      exact sound.publish rfl rfl (by rw [stage]; rfl) trivial empty valid
    · refine sound.moved (by rw [stage]; rfl) (by rw [stage]; rfl) ?_
      exact Nat.lt_of_le_of_lt Nat.and_le_right (by decide)
  · -- load
    cases stepped
    exact sound.moved (by rw [stage]; rfl) (by rw [stage]; rfl) (version_lock_t.unlocked_free _)
  · -- exchange
    rename_i path page li_slot lock_value retries
    split at stepped <;> cases stepped
    · rename_i found
      exact sound.acquire stage found.1
    · obtain ⟨failed, intent, held⟩ :=
        @Call.failed_keeps Id state path page li_slot (state.version_lock page) retries
      refine sound.moved ?_ ?_ failed
      · rw [stage, intent]
        rfl
      · rw [stage, held]
        rfl
  · -- unlocking
    cases stepped
    exact sound.release stage
  · -- clear
    cases stepped
    exact sound.withdraw (by rw [stage]; rfl) rfl (by rw [stage]; rfl) trivial
  · -- withdraw
    cases stepped
    exact sound.withdraw (by rw [stage]; rfl) rfl (by rw [stage]; rfl) valid
  · -- repair
    rename_i page after
    obtain ⟨called, intent, held⟩ := valid.call state page
    split at stepped <;> cases stepped
    · exact sound.moved (by rw [stage]; rfl) (by rw [stage]; rfl) valid
    · exact sound.moved (by rw [stage, intent]; rfl) (by rw [stage, held]; rfl) called
  · -- scan
    rename_i page after i
    obtain ⟨called, intent, held⟩ := valid.call state page
    split at stepped
    · split at stepped <;> cases stepped
      · exact sound.moved (by rw [stage, intent]; rfl) (by rw [stage, held]; rfl) called
      · exact sound.moved (by rw [stage]; rfl) (by rw [stage]; rfl) valid
    · cases stepped
      exact sound.moved (by rw [stage]; rfl) (by rw [stage]; rfl) valid
  · -- reload
    rename_i page after
    obtain ⟨called, intent, held⟩ := valid.call state page
    split at stepped <;> cases stepped
    · rename_i locked
      refine sound.moved (by rw [stage]; rfl) (by rw [stage]; rfl) ⟨valid, locked, ?_, ?_, ?_, ?_⟩
      · exact Nat.le_refl _
      · exact Nat.le_refl _
      · intro _
        rw [Nat.sub_self, Counts, locked]
        rfl
      · exact fun _ => ⟨rfl, fun _ _ _ => Nat.zero_le _⟩
    · exact sound.moved (by rw [stage, intent]; rfl) (by rw [stage, held]; rfl) called
  · -- rescan
    rename_i page after lv seen i
    obtain ⟨called, intent, held⟩ := valid.1.call state page
    split at stepped
    · split at stepped <;> cases stepped
      · exact sound.moved (by rw [stage, intent]; rfl) (by rw [stage, held]; rfl) called
      · -- whoever holds the lock has its intent further on
        rename_i missed
        refine sound.moved (by rw [stage]; rfl) (by rw [stage]; rfl) ⟨valid.1, ?_⟩
        obtain ⟨locked, unlocks, repairs, counts, passed⟩ := valid.2
        refine ⟨locked, unlocks, repairs, counts, fun same => ⟨(passed same).1, ?_⟩⟩
        intro other li_slot holding
        have ahead := (passed same).2 other li_slot holding
        have there := sound.published other page li_slot (Call.held_intent holding)
        have apart : i ≠ li_slot := by
          rintro rfl
          exact missed there
        omega
    · rename_i ended
      split at stepped <;> cases stepped
      · rename_i found
        have repairing : state.Repairing id page seen := ⟨after, lv, i, stage, by omega, found⟩
        refine sound.repaired valid.1 (by rw [stage]; rfl) ?_
        exact (sound.repairing repairing (few page seen repairing)).mpr (first page seen repairing)
      · exact sound.moved (by rw [stage, intent]; rfl) (by rw [stage, held]; rfl) called
  · -- republish
    rename_i page lock_value encountered i
    split at stepped <;> cases stepped
    · rename_i empty
      cases encountered
      · exact sound.publish rfl rfl (by rw [stage]; rfl) trivial empty valid.2
      · exact sound.publish rfl rfl (by rw [stage]; rfl) valid.1 empty valid.2
    · refine sound.moved (by rw [stage]; rfl) (by rw [stage]; rfl) ⟨valid.1, ?_⟩
      exact Nat.lt_of_le_of_lt Nat.and_le_right (by decide)

omit [DecidableEq Id] in
/-- A client owns or disowns the page. -/
theorem Sound.mark {lock : version_lock_t} (sound : Sound clean state)
    (same : lock.version = (state.version_lock page).version) :
    Sound clean (state.set_lock page lock (state.seen page)) := by
  have seen : (state.set_lock page lock (state.seen page)).seen = state.seen := by
    simp only [State.set_lock, Function.update_eq_self]
  have locks : ∀ other, ((state.set_lock page lock (state.seen page)).version_lock other).version =
      (state.version_lock other).version := by
    intro other
    simp only [State.set_lock, Function.update_apply]
    split
    · rename_i here
      rw [here, same]
    · rfl
  refine ⟨sound.published, sound.inside, sound.distinct, fun id page holds => ?_, sound.alone,
    fun page set repaired => ?_, fun id => ?_⟩
  · rw [version_lock_t.locked_congr (locks page)]
    exact sound.locked id page holds
  · rw [version_lock_t.locked_congr (locks page)] at set
    rw [seen] at repaired
    exact sound.live page set repaired
  · exact (sound.calls id).keep locks seen (fun _ => rfl)

theorem Sound.step {action : Action Id} (sound : Sound clean state) (few : state.Few action)
    (first : state.Alone action) (stepped : state.step action = some next) : Sound clean next := by
  cases action with
  | call id spurious => exact sound.call_step few first stepped
  | lock id path page =>
    simp only [State.step] at stepped
    split at stepped <;> cases stepped
    rename_i stage
    exact sound.moved (by rw [stage]; rfl) (by rw [stage]; rfl) (home_lt page)
  | repair id page =>
    simp only [State.step] at stepped
    split at stepped <;> cases stepped
    rename_i stage
    exact sound.moved (by rw [stage]; rfl) (by rw [stage]; rfl) trivial
  | unlock id =>
    simp only [State.step] at stepped
    split at stepped <;> cases stepped
    rename_i stage
    exact sound.moved (by rw [stage]; rfl) (by rw [stage]; rfl) rfl
  | resolved id encountered =>
    have valid := sound.calls id
    simp only [State.step] at stepped
    split at stepped <;> cases stepped
    rename_i stage
    rw [stage] at valid
    exact sound.moved (by rw [stage]; rfl) (by rw [stage]; rfl) valid
  | own page =>
    cases stepped
    exact sound.mark (version_lock_t.client_version _).1
  | disown page =>
    cases stepped
    exact sound.mark (version_lock_t.client_version _).2

omit [DecidableEq Id] in
theorem Sound.opened (opened : state.Opened)
    (unlocked : ∀ page, clean page → (state.version_lock page).is_locked = false) :
    Sound clean state := by
  have unpublished : ∀ id entry, (state.calls id).intent ≠ some entry := by
    intro id entry intent
    rw [opened.calls id] at intent
    cases intent
  have unheld : ∀ id page, ¬state.Holds id page := by
    rintro id page ⟨li_slot, held⟩
    exact unpublished id _ (Call.held_intent held)
  refine ⟨fun id page _ intent => absurd intent (unpublished id _),
    fun id page _ intent => absurd intent (unpublished id _),
    fun id _ _ _ _ intent => absurd intent (unpublished id _),
    fun id page holds => absurd holds (unheld id page),
    fun id _ page holds => absurd holds (unheld id page), fun page set live => ?_, fun id => ?_⟩
  · rw [opened.seen page] at live
    rcases live with repaired | live
    · exact absurd rfl repaired
    · cases set.symm.trans (unlocked page live)
  · rw [opened.calls id]
    trivial

theorem Sound.reached
    (reached : (machine Id).Reach (fun state action => state.Few action ∧ state.Alone action)
      state) : Sound (fun _ => False) state :=
  reached.invariant (fun _ opened => .opened opened (fun _ never => never.elim))
    (fun _ _ _ sound meets stepped => sound.step meets.1 meets.2 stepped)

/-- As long as every repair that succeeds is the first of its page since it has
loaded the lock again, no two calls hold a lock. Before the next repair that
succeeds nobody holds the lock exactly if this one is the first too. -/
theorem repair_exclusive
    (reached : (machine Id).Reach (fun state action => state.Few action ∧ state.Alone action)
      state) :
    (∀ id other page, state.Holds id page → state.Holds other page → id = other) ∧
    ∀ id page seen, state.Repairing id page seen →
      (state.seen page).unlocks - seen.unlocks < 32 →
      ((∀ other, ¬state.Holds other page) ↔ (state.seen page).repairs = seen.repairs) := by
  have sound := Sound.reached reached
  exact ⟨sound.alone, fun _ _ _ repairing few => sound.repairing repairing few⟩

/-! ### What a call leaves alone -/

omit [DecidableEq Id] in
theorem State.Keeps.holds (keeps : state.Keeps id page) : state.Holds id page := by
  obtain ⟨path, li_slot, stage⟩ := keeps
  exact ⟨li_slot, by rw [stage]; rfl⟩

theorem After.call_page (after : After) (page : Page) :
    after.call page = .idle ∨ (after.call page).page = some page := by
  cases after with
  | finish => exact .inl rfl
  | retry => exact .inr rfl

theorem Call.failed_page (path : Path) (page : Page) (li_slot : Nat) (found : version_lock_t)
    (retries : Nat) : (Call.failed path page li_slot found retries).page = some page := by
  cases path with
  | put | update => rfl
  | free =>
    simp only [Call.failed]
    split <;> rfl

/-- One step of a call: the other calls stay where they are, the call stays with
its page or ends, and no lock of another page changes. -/
theorem call_step_local {spurious : Bool} (stepped : state.call_step id spurious = some next) :
    ∃ call page, next.calls = Function.update state.calls id call ∧
      (state.calls id).page = some page ∧ (call = .idle ∨ call.page = some page) ∧
      (∀ other, other ≠ page → next.version_lock other = state.version_lock other) ∧
      ∀ other, (next.seen other).repairs = (state.seen other).repairs ∨
        ∃ seen, state.Repairing id other seen := by
  simp only [State.call_step] at stepped
  split at stepped <;> rename_i stage <;> rw [stage]
  · cases stepped
  · cases stepped
  · cases stepped
  · -- publish
    split at stepped <;> cases stepped <;>
      exact ⟨_, _, rfl, rfl, .inr rfl, fun _ _ => rfl, fun _ => .inl rfl⟩
  · -- load
    cases stepped
    exact ⟨_, _, rfl, rfl, .inr rfl, fun _ _ => rfl, fun _ => .inl rfl⟩
  · -- exchange
    split at stepped <;> cases stepped
    · refine ⟨_, _, rfl, rfl, .inr rfl, fun _ away => Function.update_of_ne away .., fun _ => ?_⟩
      simp only [State.at, State.set_lock, Function.update_eq_self, true_or]
    · exact ⟨_, _, rfl, rfl, .inr (Call.failed_page ..), fun _ _ => rfl, fun _ => .inl rfl⟩
  · -- unlocking
    rename_i page li_slot current_version
    cases stepped
    refine ⟨_, _, rfl, rfl, .inr rfl, fun _ away => Function.update_of_ne away .., fun other => ?_⟩
    simp only [State.at, State.set_lock, Function.update_apply]
    split
    · rename_i here
      rw [here]
      exact .inl rfl
    · exact .inl rfl
  · -- clear
    cases stepped
    exact ⟨_, _, rfl, rfl, .inl rfl, fun _ _ => rfl, fun _ => .inl rfl⟩
  · -- withdraw
    cases stepped
    exact ⟨_, _, rfl, rfl, .inr rfl, fun _ _ => rfl, fun _ => .inl rfl⟩
  · -- repair
    split at stepped <;> cases stepped
    · exact ⟨_, _, rfl, rfl, .inr rfl, fun _ _ => rfl, fun _ => .inl rfl⟩
    · exact ⟨_, _, rfl, rfl, After.call_page .., fun _ _ => rfl, fun _ => .inl rfl⟩
  · -- scan
    split at stepped
    · split at stepped <;> cases stepped
      · exact ⟨_, _, rfl, rfl, After.call_page .., fun _ _ => rfl, fun _ => .inl rfl⟩
      · exact ⟨_, _, rfl, rfl, .inr rfl, fun _ _ => rfl, fun _ => .inl rfl⟩
    · cases stepped
      exact ⟨_, _, rfl, rfl, .inr rfl, fun _ _ => rfl, fun _ => .inl rfl⟩
  · -- reload
    split at stepped <;> cases stepped
    · exact ⟨_, _, rfl, rfl, .inr rfl, fun _ _ => rfl, fun _ => .inl rfl⟩
    · exact ⟨_, _, rfl, rfl, After.call_page .., fun _ _ => rfl, fun _ => .inl rfl⟩
  · -- rescan
    rename_i page after lv seen i
    split at stepped
    · split at stepped <;> cases stepped
      · exact ⟨_, _, rfl, rfl, After.call_page .., fun _ _ => rfl, fun _ => .inl rfl⟩
      · exact ⟨_, _, rfl, rfl, .inr rfl, fun _ _ => rfl, fun _ => .inl rfl⟩
    · rename_i ended
      split at stepped <;> cases stepped
      · rename_i found
        refine ⟨_, _, rfl, rfl, After.call_page .., fun _ away => Function.update_of_ne away ..,
          fun other => ?_⟩
        by_cases here : other = page
        · subst here
          exact .inr ⟨seen, after, lv, i, stage, Nat.le_of_not_lt ended, found⟩
        · refine .inl ?_
          simp only [State.at, State.set_lock, Function.update_of_ne here]
      · exact ⟨_, _, rfl, rfl, After.call_page .., fun _ _ => rfl, fun _ => .inl rfl⟩
  · -- republish
    rename_i encountered _
    split at stepped <;> cases stepped
    · cases encountered <;>
        exact ⟨_, _, rfl, rfl, .inr rfl, fun _ _ => rfl, fun _ => .inl rfl⟩
    · exact ⟨_, _, rfl, rfl, .inr rfl, fun _ _ => rfl, fun _ => .inl rfl⟩

theorem State.Keeps.still {spurious : Bool} (keeps : state.Keeps id page) :
    state.call_step id spurious = none := by
  obtain ⟨path, li_slot, stage⟩ := keeps
  simp only [State.call_step, stage]

omit [DecidableEq Id] in
/-- Where no stale lock was to begin with, no repair succeeds. -/
theorem Sound.never_repairs {spurious : Bool} (sound : Sound clean state) (spared : clean page)
    (unrepaired : (state.seen page).repairs = 0) (few : state.Few (.call id spurious)) :
    ∀ seen, ¬state.Repairing id page seen := by
  intro seen repairing
  have about := repairing
  obtain ⟨after, lv, i, stage, done, found⟩ := about
  have rescanned : Rescanned state page lv seen i := by
    have valid := sound.calls id
    rw [stage] at valid
    exact valid.2
  have repairs := rescanned.repairs
  have same : (state.seen page).repairs = seen.repairs := by
    rw [unrepaired] at repairs ⊢
    omega
  have nobody := (sound.repairing repairing (few page seen repairing)).mpr same
  obtain ⟨holder, holds⟩ := sound.live page (found ▸ rescanned.locked) (.inr spared)
  exact nobody holder holds

omit [DecidableEq Id] in
theorem Call.held_page {call : Call} {li_slot : Nat} (held : call.held = some (page, li_slot)) :
    call.page = some page := by
  cases call <;> cases held <;> rfl

omit [DecidableEq Id] in
/-- The lock of a page that no call is about may be stored. -/
theorem Sound.store_lock {lock : version_lock_t} (sound : Sound clean state)
    (untouched : ∀ id, (state.calls id).page ≠ some page) (free : lock.is_locked = false) :
    Sound clean (state.set_lock page lock (state.seen page)) := by
  have seen : (state.set_lock page lock (state.seen page)).seen = state.seen := by
    simp only [State.set_lock, Function.update_eq_self]
  have locks : ∀ other, other ≠ page →
      (state.set_lock page lock (state.seen page)).version_lock other =
        state.version_lock other := fun other away => Function.update_of_ne away ..
  have word : (state.set_lock page lock (state.seen page)).version_lock page = lock :=
    Function.update_self ..
  refine ⟨sound.published, sound.inside, sound.distinct, fun id other holds => ?_, sound.alone,
    fun other set live => ?_, fun id => ?_⟩
  · have away : other ≠ page := by
      rintro rfl
      obtain ⟨li_slot, held⟩ := holds
      exact untouched id (Call.held_page held)
    rw [locks other away]
    exact sound.locked id other holds
  · by_cases here : other = page
    · rw [here, word, free] at set
      cases set
    · rw [locks other here] at set
      rw [seen] at live
      exact sound.live other set live
  · have about := untouched id
    refine (sound.calls id).change locks (fun other _ => by rw [seen])
      (fun _ _ _ _ held => held) (fun li_slot held => absurd (Call.held_page held) about) ?_
    intro after lv before i stage
    exact absurd (congrArg Call.page stage) about

theorem lock_step {path : Path} (stepped : state.step (.lock id path page) = some next) :
    state.calls id = .idle ∧ next = state.at id (.publish path page page.home) := by
  simp only [State.step] at stepped
  split at stepped <;> cases stepped
  exact ⟨‹_›, rfl⟩

theorem unlock_step (stepped : state.step (.unlock id) = some next) :
    ∃ path page li_slot, state.calls id = .holding path page li_slot ∧
      next = state.at id (.unlocking path page li_slot (state.version_lock page)) := by
  simp only [State.step] at stepped
  split at stepped <;> cases stepped
  exact ⟨_, _, _, ‹_›, rfl⟩

theorem resolved_step {encountered : Bool}
    (stepped : state.step (.resolved id encountered) = some next) :
    ∃ page li_slot lock_value, state.calls id = .resolve page li_slot lock_value ∧
      next = state.at id (.withdraw page li_slot lock_value encountered) := by
  simp only [State.step] at stepped
  split at stepped <;> cases stepped
  exact ⟨_, _, _, ‹_›, rfl⟩

/-! ### Two repairs of one lock -/

def State.few (state : State Id) : Action Id → Bool
  | .call id _ =>
      match state.calls id with
      | .rescan page _ _ seen _ => (state.seen page).unlocks - seen.unlocks < 32
      | _ => true
  | _ => true

omit [DecidableEq Id] in
theorem Few.of_few {action : Action Id} (few : state.few action = true) : state.Few action := by
  cases action with
  | call id spurious =>
    rintro page seen ⟨after, lv, i, stage, -⟩
    simpa [State.few, stage] using few
  | _ => trivial

abbrev Guarded (state : State Id) (action : Action Id) : Prop :=
  state.Few action ∧ state.Alone action

omit [DecidableEq Id] in
/-- What has been counted since the reload is nothing yet. -/
theorem Guarded.unchanged {spurious : Bool}
    (same : ∀ page after lv seen i, state.calls id = .rescan page after lv seen i →
      state.seen page = seen) : Guarded state (.call id spurious) := by
  constructor
  · rintro page seen ⟨after, lv, i, stage, -⟩
    rw [same page after lv seen i stage, Nat.sub_self]
    decide
  · rintro page seen ⟨after, lv, i, stage, -⟩
    rw [same page after lv seen i stage]

/-- One more step of a repair that nothing but itself depends on. -/
theorem goes_on {call after : Call} (reached : (machine Id).Reach Guarded (state.at id call))
    (same : ∀ page after lv seen i, call = .rescan page after lv seen i → state.seen page = seen)
    (stepped : (state.at id call).call_step id false = some ((state.at id call).at id after)) :
    (machine Id).Reach Guarded (state.at id after) := by
  have unchanged : Guarded (state.at id call) (.call id false) := by
    refine .unchanged (fun page after lv seen i stage => ?_)
    simp only [State.at, Function.update_self] at stage
    exact same page after lv seen i stage
  have moved := reached.move unchanged stepped
  simpa only [State.at, Function.update_idem] using moved

/-- On an empty registry a repair of a stale lock comes to its compare-and-swap. -/
theorem scans_pass (id : Id) (page : Page) (reached : (machine Id).Reach Guarded state)
    (idle : state.calls id = .idle) (empty : ∀ i, state.lock_intents i = 0)
    (stale : (state.version_lock page).is_locked = true) :
    (machine Id).Reach Guarded (state.at id
      (.rescan page .finish (state.version_lock page) (state.seen page) kLockIntentSlots)) := by
  have began : (machine Id).Reach Guarded (state.at id (.repair page .finish)) := by
    have possible : state.step (.repair id page) = some (state.at id (.repair page .finish)) := by
      simp only [State.step, idle]
    exact reached.move (show Guarded state (.repair id page) from ⟨trivial, trivial⟩) possible
  have first : ∀ i, i ≤ kLockIntentSlots →
      (machine Id).Reach Guarded (state.at id (.scan page .finish i)) := by
    intro i inside
    induction i with
    | zero =>
      refine goes_on began (fun _ _ _ _ _ other => nomatch other) ?_
      simp [State.call_step, State.at, stale]
    | succ i ih =>
      refine goes_on (ih (by omega)) (fun _ _ _ _ _ other => nomatch other) ?_
      have before : i < kLockIntentSlots := by omega
      simp [State.call_step, State.at, empty, before, page.nonnull.symm]
  have reloaded : (machine Id).Reach Guarded (state.at id (.reload page .finish)) := by
    refine goes_on (first kLockIntentSlots (Nat.le_refl _)) (fun _ _ _ _ _ other => nomatch other) ?_
    simp [State.call_step, State.at]
  have second : ∀ i, i ≤ kLockIntentSlots → (machine Id).Reach Guarded (state.at id
      (.rescan page .finish (state.version_lock page) (state.seen page) i)) := by
    intro i inside
    induction i with
    | zero =>
      refine goes_on reloaded (fun _ _ _ _ _ other => nomatch other) ?_
      simp [State.call_step, State.at, stale]
    | succ i ih =>
      refine goes_on (ih (by omega)) ?_ ?_
      · intro _ _ _ _ _ stage
        cases stage
        rfl
      · have before : i < kLockIntentSlots := by omega
        simp [State.call_step, State.at, empty, before, page.nonnull.symm]
  exact second kLockIntentSlots (Nat.le_refl _)

def stale_page : Page := ⟨4096, by decide⟩

def stale : State Nat where
  version_lock := fun _ => USED_BIT ||| 1#8
  lock_intents := fun _ => 0
  calls := fun _ => .idle
  seen := fun _ => ⟨0, 0⟩

def two_repairers : State Nat :=
  let scanned : Call := .rescan stale_page .finish (USED_BIT ||| 1#8) ⟨0, 0⟩ kLockIntentSlots
  (stale.at 0 scanned).at 1 scanned

theorem two_repairers_reached : (machine Nat).Reach Guarded two_repairers := by
  have start : (machine Nat).Reach Guarded stale :=
    .start ⟨fun _ => rfl, fun _ => rfl, fun _ => rfl⟩
  have one := scans_pass 0 stale_page start rfl (fun _ => rfl) (by decide)
  exact scans_pass 1 stale_page one rfl (fun _ => rfl) (by decide)

theorem repair_exclusive_stale : ¬∃ other, two_repairers.Holds other stale_page := by
  have unheld := ((repair_exclusive two_repairers_reached).2 0 stale_page ⟨0, 0⟩
    ⟨.finish, _, kLockIntentSlots, rfl, Nat.le_refl _, rfl⟩ (by decide)).mpr rfl
  rintro ⟨other, holds⟩
  exact unheld other holds

/-- The first repairs the lock, a put takes it, the second repairs it again, and
another put takes it. -/
def two_repairs : List (Action Nat) :=
  let lock (id : Nat) : List (Action Nat) :=
    .lock id .put stale_page :: List.replicate 3 (.call id false)
  .call 0 false :: lock 2 ++ .call 1 false :: lock 3 ++ [.call 3 false]

theorem two_repairs_break :
    ∃ state, (machine Nat).Reach State.Few state ∧
      state.Holds 2 stale_page ∧ state.Holds 3 stale_page := by
  obtain ⟨state, ran, first, second⟩ : ∃ state,
      ((machine Nat).checked State.few).run two_repairers two_repairs = some state ∧
      (state.calls 2).held = some (stale_page, 1) ∧
        (state.calls 3).held = some (stale_page, 2) := ⟨_, rfl, rfl, rfl⟩
  have start := two_repairers_reached.weaken (fun _ _ guarded => guarded.1)
  have reached := start.run_checked (fun _ _ => Few.of_few) ran
  exact ⟨state, reached, ⟨1, first⟩, ⟨2, second⟩⟩

end Hiom.Viper.Intents
