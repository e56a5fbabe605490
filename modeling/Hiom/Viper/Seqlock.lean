import Hiom.Lib.Machine
import Hiom.Viper.Lock
import Mathlib

/-!
One page, the clients that put and update records on it, and readers that copy
a record without the lock. A record is `words` words, those of the key before
those of the value.
-/

namespace Hiom.Viper.Seqlock

/-- Where a writer is: a put, or an update in place. What it stores under the
lock is up to it. `lock_value` is what it expects to find, `current_version`
what `unlock` has loaded. -/
inductive Writer where
  | idle
  | load (blocking : Bool)
  | exchange (blocking : Bool) (lock_value : version_lock_t)
  | holding
  | unlocking (current_version : version_lock_t)

/-- The page when a reader has loaded the lock for the first time: the record,
who held the lock, and how many unlocks there had been. -/
structure Moment where
  record : List Nat
  holder : Option Nat
  unlocks : Nat

inductive ReadStatus where
  | kOk
  | kTransient
  | kSlotFree
  deriving DecidableEq

/-- Where a call of `hiom_read_at_offset_status` is. `began` is the number of
unlocks when the call began. -/
inductive Reader where
  | idle
  | check (slot began : Nat)
  | load (slot began : Nat)
  | copy (slot began : Nat) (lock_val : version_lock_t) (out : List Nat) (moment : Moment)
  | done (slot began : Nat) (status : ReadStatus) (out : List Nat) (moment : Moment) (ended : Nat)

/-- `holder` and `unlocks` are not in the code: the writer that holds the lock,
and how many lock and unlock cycles are complete. -/
structure Page where
  version_lock : version_lock_t
  free_slots : Nat → Bool
  data : Nat → Nat → Nat
  writers : Nat → Writer
  readers : Nat → Reader
  holder : Option Nat
  unlocks : Nat

inductive Action where
  | lock (writer : Nat) (blocking : Bool)
  | writer (writer : Nat) (spurious : Bool)
  | store (writer slot word value : Nat)
  | set_free (writer slot : Nat) (free : Bool)
  | unlock (writer : Nat)
  | own
  | disown
  | read (reader slot : Nat)
  | reader (reader : Nat)

def Page.at (page : Page) (id : Nat) (writer : Writer) : Page :=
  { page with writers := Function.update page.writers id writer }

def Page.read_at (page : Page) (id : Nat) (reader : Reader) : Page :=
  { page with readers := Function.update page.readers id reader }

def Page.record (page : Page) (words slot : Nat) : List Nat :=
  (List.range words).map (page.data slot)

def Page.writer_step (page : Page) (id : Nat) (spurious : Bool) : Option Page :=
  match page.writers id with
  | .idle | .holding => none
  | .load blocking => some (page.at id (.exchange blocking page.version_lock.unlocked))
  | .exchange blocking lock_value =>
      if page.version_lock = lock_value ∧ spurious = false then
        some { page.at id .holding with version_lock := lock_value + 1#8, holder := some id }
      else if blocking then
        some (page.at id (.exchange blocking page.version_lock.unlocked))
      else some (page.at id .idle)
  | .unlocking current_version =>
      some { page.at id .idle with
        version_lock := current_version.released
        holder := none
        unlocks := page.unlocks + 1 }

def Page.reader_step (page : Page) (words id : Nat) : Option Page :=
  match page.readers id with
  | .idle | .done .. => none
  | .check slot began =>
      if page.free_slots slot then
        some (page.read_at id (.done slot began .kSlotFree [] ⟨[], none, 0⟩ page.unlocks))
      else some (page.read_at id (.load slot began))
  | .load slot began =>
      let moment := ⟨page.record words slot, page.holder, page.unlocks⟩
      if page.version_lock.is_locked then
        some (page.read_at id (.done slot began .kTransient [] moment page.unlocks))
      else some (page.read_at id (.copy slot began page.version_lock [] moment))
  | .copy slot began lock_val out moment =>
      if out.length < words then
        some (page.read_at id
          (.copy slot began lock_val (out ++ [page.data slot out.length]) moment))
      else if lock_val = page.version_lock then
        some (page.read_at id (.done slot began .kOk out moment page.unlocks))
      else some (page.read_at id (.done slot began .kTransient out moment page.unlocks))

/-- Clients claim the block and leave it without the lock of its first page. -/
def Page.step (words : Nat) (page : Page) : Action → Option Page
  | .lock id blocking =>
      match page.writers id with
      | .idle => some (page.at id (.load blocking))
      | _ => none
  | .writer id spurious => page.writer_step id spurious
  | .store id slot word value =>
      match page.writers id with
      | .holding =>
          some { page with
            data := Function.update page.data slot
              (Function.update (page.data slot) word value) }
      | _ => none
  | .set_free id slot free =>
      match page.writers id with
      | .holding => some { page with free_slots := Function.update page.free_slots slot free }
      | _ => none
  | .unlock id =>
      match page.writers id with
      | .holding => some (page.at id (.unlocking page.version_lock))
      | _ => none
  | .own => some { page with version_lock := page.version_lock ||| CLIENT_BIT }
  | .disown => some { page with version_lock := page.version_lock &&& NO_CLIENT_BIT }
  | .read id slot =>
      match page.readers id with
      | .idle | .done .. => some (page.read_at id (.check slot page.unlocks))
      | _ => none
  | .reader id => page.reader_step words id

/-- Any page, also one with a lock that nobody holds. -/
def page_machine (words : Nat) : Machine Page Action where
  initial := fun page => (∀ id, page.writers id = .idle) ∧ (∀ id, page.readers id = .idle) ∧
    page.holder = none ∧ page.unlocks = 0
  step := Page.step words

/-! ### The lock -/

def Writer.Holds : Writer → Prop
  | .holding | .unlocking _ => True
  | _ => False

def Writer.Sound (page : Page) : Writer → Prop
  | .exchange _ lock_value => lock_value.is_locked = false
  | .unlocking current_version => current_version.version = page.version_lock.version
  | _ => True

structure Locked (page : Page) : Prop where
  writers : ∀ id, (page.writers id).Sound page
  holder : ∀ id, (page.writers id).Holds ↔ page.holder = some id
  locked : page.holder ≠ none → page.version_lock.is_locked = true

def Page.counted (page : Page) (moment : Moment) : Nat :=
  2 * (page.unlocks - moment.unlocks) + if page.holder = none then 0 else 1

/-- A reader that is copying started from an unlocked page; until somebody locks
it again the slot holds what it held then. -/
def Reader.Sound (page : Page) (words : Nat) : Reader → Prop
  | .check _ began | .load _ began => began ≤ page.unlocks
  | .copy slot began lock_val out moment =>
      began ≤ moment.unlocks ∧ moment.unlocks ≤ page.unlocks ∧ moment.holder = none ∧
      out.length ≤ words ∧ lock_val.is_locked = false ∧
      page.version_lock.version = (lock_val.version + page.counted moment) % 64 ∧
      (page.unlocks = moment.unlocks → page.holder = none →
        moment.record = page.record words slot ∧ out = moment.record.take out.length)
  | .done _ began status out moment ended =>
      status = .kOk → ended - began < 32 → out = moment.record ∧ moment.holder = none
  | .idle => True

structure Sound (page : Page) (words : Nat) : Prop extends Locked page where
  readers : ∀ id, (page.readers id).Sound page words

variable {page next : Page} {words id : Nat}

theorem Locked.at {writer : Writer} (locked : Locked page) (sound : writer.Sound page)
    (same : writer.Holds ↔ (page.writers id).Holds) : Locked (page.at id writer) where
  writers := by
    intro other
    simp only [Page.at, Function.update_apply]
    split
    · exact sound
    · exact locked.writers other
  holder := by
    intro other
    simp only [Page.at, Function.update_apply]
    split
    · rename_i here
      subst here
      exact same.trans (locked.holder other)
    · exact locked.holder other
  locked := locked.locked

theorem Sound.at {writer : Writer} (valid : Sound page words) (sound : writer.Sound page)
    (same : writer.Holds ↔ (page.writers id).Holds) : Sound (page.at id writer) words :=
  ⟨valid.toLocked.at sound same, valid.readers⟩

theorem Sound.read_at {reader : Reader} (valid : Sound page words)
    (sound : reader.Sound page words) : Sound (page.read_at id reader) words where
  toLocked := ⟨valid.writers, valid.holder, valid.locked⟩
  readers := by
    intro other
    simp only [Page.read_at, Function.update_apply]
    split
    · exact sound
    · exact valid.readers other

/-- The compare-and-swap that takes the lock. -/
theorem Sound.acquire {blocking : Bool} (valid : Sound page words)
    (stage : page.writers id = .exchange blocking page.version_lock) :
    Sound { page.at id .holding with
      version_lock := page.version_lock + 1#8
      holder := some id } words := by
  have free : page.version_lock.is_locked = false := by
    have sound := valid.writers id
    rwa [stage] at sound
  have unheld : page.holder = none := by
    by_contra held
    exact absurd (valid.locked held) (by simp [free])
  have nobody : ∀ other, ¬(page.writers other).Holds := fun other holds => by
    have held := (valid.holder other).mp holds
    rw [unheld] at held
    cases held
  obtain ⟨version, locked⟩ := version_lock_t.locked_version free
  have even : page.version_lock.version % 2 ≠ 1 := fun odd => by
    have locked := (version_lock_t.locked_iff _).mpr odd
    rw [free] at locked
    cases locked
  refine ⟨⟨fun other => ?_, fun other => ?_, fun _ => locked⟩, fun other => ?_⟩
  · simp only [Page.at, Function.update_apply]
    split
    · trivial
    · have sound := valid.writers other
      have idle := nobody other
      cases writer : page.writers other <;> rw [writer] at sound idle
      case unlocking => exact absurd trivial idle
      all_goals exact sound
  · simp only [Page.at, Function.update_apply]
    split
    · rename_i here
      simp [Writer.Holds, here]
    · rename_i different
      refine iff_of_false (nobody other) (fun same => different (Option.some.inj same).symm)
  · have sound := valid.readers other
    change (page.readers other).Sound _ words
    cases reader : page.readers other <;> rw [reader] at sound
    case copy slot began lock_val out moment =>
      obtain ⟨first, order, moment_free, length, val_free, counted, -⟩ := sound
      refine ⟨first, order, moment_free, length, val_free, ?_, fun _ held => nomatch held⟩
      simp only [Page.counted, unheld, if_true] at counted
      simp only [Page.at, Page.counted, version, reduceCtorEq, if_false]
      have bound := page.version_lock.version_lt
      omega
    all_goals exact sound

/-- The store that gives the lock up. -/
theorem Sound.release {current_version : version_lock_t} (valid : Sound page words)
    (stage : page.writers id = .unlocking current_version) :
    Sound { page.at id .idle with
      version_lock := current_version.released
      holder := none
      unlocks := page.unlocks + 1 } words := by
  have same : current_version.version = page.version_lock.version := by
    have sound := valid.writers id
    rwa [stage] at sound
  have held : page.holder = some id := by
    rw [← valid.holder id, stage]
    trivial
  have others : ∀ other, other ≠ id → ¬(page.writers other).Holds := by
    intro other different holds
    have second := (valid.holder other).mp holds
    rw [held] at second
    exact different (Option.some.inj second).symm
  refine ⟨⟨fun other => ?_, fun other => ?_, fun held => absurd rfl held⟩, fun other => ?_⟩
  · simp only [Page.at, Function.update_apply]
    split
    · trivial
    · rename_i different
      have sound := valid.writers other
      have idle := others other different
      cases writer : page.writers other <;> rw [writer] at sound idle
      case unlocking => exact absurd trivial idle
      all_goals exact sound
  · simp only [Page.at, Function.update_apply]
    split
    · exact iff_of_false (fun holds => holds) (fun held => nomatch held)
    · rename_i different
      exact iff_of_false (others other different) (fun held => nomatch held)
  · have sound := valid.readers other
    change (page.readers other).Sound _ words
    cases reader : page.readers other <;> rw [reader] at sound
    case check => exact Nat.le_succ_of_le sound
    case load => exact Nat.le_succ_of_le sound
    case copy slot began lock_val out moment =>
      obtain ⟨first, order, moment_free, length, val_free, counted, -⟩ := sound
      refine ⟨first, Nat.le_succ_of_le order, moment_free, length, val_free, ?_, fun same => ?_⟩
      · simp only [Page.counted, held, reduceCtorEq, if_false] at counted
        simp only [Page.counted, version_lock_t.released_version, same, if_true]
        omega
      · simp only at same
        omega
    all_goals exact sound

/-- A store under the lock. -/
theorem Sound.store {slot word value : Nat} (valid : Sound page words)
    (stage : page.writers id = .holding) :
    Sound { page with
      data := Function.update page.data slot (Function.update (page.data slot) word value) }
      words := by
  have held : page.holder = some id := by
    rw [← valid.holder id, stage]
    trivial
  refine ⟨⟨valid.writers, valid.holder, valid.locked⟩, fun other => ?_⟩
  have sound := valid.readers other
  change (page.readers other).Sound _ words
  cases reader : page.readers other <;> rw [reader] at sound
  case copy slot began lock_val out moment =>
    obtain ⟨first, order, moment_free, length, val_free, counted, -⟩ := sound
    refine ⟨first, order, moment_free, length, val_free, counted, fun _ free => ?_⟩
    cases held.symm.trans free
  all_goals exact sound

/-- A step that leaves the version, the lock and the records alone. -/
theorem Sound.relabel {version_lock : version_lock_t} {free_slots : Nat → Bool}
    (valid : Sound page words) (same : version_lock.version = page.version_lock.version) :
    Sound { page with version_lock := version_lock, free_slots := free_slots } words := by
  refine ⟨⟨fun other => ?_, valid.holder, fun held => ?_⟩, fun other => ?_⟩
  · have sound := valid.writers other
    change (page.writers other).Sound _
    cases writer : page.writers other <;> rw [writer] at sound
    case unlocking => exact sound.trans same.symm
    all_goals exact sound
  · have locked := valid.locked held
    rw [version_lock_t.locked_iff] at locked ⊢
    exact same ▸ locked
  · have sound := valid.readers other
    change (page.readers other).Sound _ words
    cases reader : page.readers other <;> rw [reader] at sound
    case copy slot began lock_val out moment =>
      obtain ⟨first, order, moment_free, length, val_free, counted, kept⟩ := sound
      exact ⟨first, order, moment_free, length, val_free, same.trans counted, kept⟩
    all_goals exact sound

theorem Sound.writer_step {spurious : Bool} (valid : Sound page words)
    (stepped : page.writer_step id spurious = some next) : Sound next words := by
  unfold Page.writer_step at stepped
  split at stepped
  · cases stepped
  · cases stepped
  · rename_i stage
    cases stepped
    exact valid.at (version_lock_t.unlocked_free _) (by rw [stage]; rfl)
  · rename_i blocking lock_value stage
    split at stepped
    · rename_i exchanged
      cases stepped
      obtain ⟨rfl, -⟩ := exchanged
      exact valid.acquire stage
    · split at stepped <;> cases stepped
      · exact valid.at (version_lock_t.unlocked_free _) (by rw [stage]; rfl)
      · exact valid.at trivial (by rw [stage]; rfl)
  · rename_i stage
    cases stepped
    exact valid.release stage

theorem Sound.reader_step (valid : Sound page words)
    (stepped : page.reader_step words id = some next) : Sound next words := by
  have sound := valid.readers id
  unfold Page.reader_step at stepped
  split at stepped <;> rename_i stage <;> rw [stage] at sound
  · cases stepped
  · cases stepped
  · split at stepped <;> cases stepped
    · exact valid.read_at (fun wrong => nomatch wrong)
    · exact valid.read_at sound
  · rename_i slot began
    dsimp only at stepped
    split at stepped <;> cases stepped
    · exact valid.read_at (fun wrong => nomatch wrong)
    · rename_i unlocked
      have free : page.version_lock.is_locked = false := Bool.not_eq_true _ ▸ unlocked
      have unheld : page.holder = none := by
        by_contra held
        exact unlocked (valid.locked held)
      refine valid.read_at ⟨sound, Nat.le_refl _, unheld, Nat.zero_le _, free, ?_, ?_⟩
      · have bound := page.version_lock.version_lt
        simp only [Page.counted, unheld, Nat.sub_self, if_true]
        omega
      · intro _ _
        exact ⟨rfl, rfl⟩
  · rename_i slot began lock_val out moment
    obtain ⟨first, order, moment_free, length, val_free, counted, kept⟩ := sound
    split at stepped
    · rename_i more
      cases stepped
      refine valid.read_at ⟨first, order, moment_free, ?_, val_free, counted, fun same free => ?_⟩
      · rw [List.length_append]
        exact more
      · obtain ⟨record, copied⟩ := kept same free
        have word : moment.record[out.length]? = some (page.data slot out.length) := by
          rw [record]
          simp [Page.record, more]
        refine ⟨record, ?_⟩
        rw [List.length_append, List.length_singleton, List.take_add_one, ← copied, word]
        rfl
    · rename_i all
      split at stepped <;> cases stepped
      · rename_i unchanged
        refine valid.read_at (fun _ few => ⟨?_, moment_free⟩)
        have unheld : page.holder = none := by
          by_contra held
          exact absurd (valid.locked held) (by simp [← unchanged, val_free])
        have still : page.unlocks = moment.unlocks := by
          rw [← unchanged] at counted
          simp only [Page.counted, unheld, if_true] at counted
          have bound := lock_val.version_lt
          omega
        obtain ⟨record, copied⟩ := kept still unheld
        rw [copied]
        refine List.take_of_length_le ?_
        rw [record]
        simpa [Page.record] using all
      · exact valid.read_at (fun wrong => nomatch wrong)

theorem Sound.step {action : Action} (valid : Sound page words)
    (stepped : page.step words action = some next) : Sound next words := by
  cases action with
  | lock id blocking =>
      simp only [Page.step] at stepped
      split at stepped
      · rename_i stage
        cases stepped
        exact valid.at trivial (by rw [stage]; rfl)
      · cases stepped
  | writer id spurious => exact valid.writer_step stepped
  | store id slot word value =>
      simp only [Page.step] at stepped
      split at stepped
      · rename_i stage
        cases stepped
        exact valid.store stage
      · cases stepped
  | set_free id slot free =>
      simp only [Page.step] at stepped
      split at stepped
      · cases stepped
        exact valid.relabel rfl
      · cases stepped
  | unlock id =>
      simp only [Page.step] at stepped
      split at stepped
      · rename_i stage
        cases stepped
        exact valid.at rfl (by rw [stage]; rfl)
      · cases stepped
  | own =>
      cases stepped
      exact valid.relabel (version_lock_t.client_version _).1
  | disown =>
      cases stepped
      exact valid.relabel (version_lock_t.client_version _).2
  | read id slot =>
      simp only [Page.step] at stepped
      split at stepped
      · cases stepped
        exact valid.read_at (Nat.le_refl _)
      · cases stepped
        exact valid.read_at (Nat.le_refl _)
      · cases stepped
  | reader id => exact valid.reader_step stepped

theorem page_sound (reached : (page_machine words).Reachable page) : Sound page words := by
  apply reached.invariant
  · rintro page ⟨writers, readers, unheld, none_yet⟩
    refine ⟨⟨fun id => ?_, fun id => ?_, fun held => absurd unheld held⟩, fun id => ?_⟩
    · rw [writers id]
      trivial
    · rw [writers id, unheld]
      exact iff_of_false (fun holds => holds) (fun held => nomatch held)
    · rw [readers id]
      trivial
  · intro page action next valid _ stepped
    exact valid.step stepped

/-! ### The moment of a read -/

theorem Page.readers_read_at (reader : Reader) : (page.read_at id reader).readers id = reader :=
  Function.update_self ..

/-- The page when the reader was about to load the lock. It has been in the same
call ever since. -/
structure Witnessed (words id slot began : Nat) (moment : Moment) (before page : Page) : Prop where
  reached : (page_machine words).Reachable before
  calling : before.readers id = .load slot began
  moment : moment = ⟨before.record words slot, before.holder, before.unlocks⟩
  since : ((page_machine words).after before).Reach
    (fun _ action => ∀ slot, action ≠ .read id slot) page

def Reader.Follows (page : Page) (words id : Nat) : Reader → Prop
  | .copy slot began _ _ moment => ∃ before, Witnessed words id slot began moment before page
  | .done slot began status _ moment _ => status ≠ .kSlotFree →
      ∃ before, Witnessed words id slot began moment before page
  | _ => True

theorem Witnessed.move {slot began : Nat} {moment : Moment} {before : Page} {action : Action}
    (witnessed : Witnessed words id slot began moment before page)
    (other : ∀ slot, action ≠ .read id slot) (stepped : page.step words action = some next) :
    Witnessed words id slot began moment before next where
  reached := witnessed.reached
  calling := witnessed.calling
  moment := witnessed.moment
  since := .move witnessed.since other stepped

/-- The load of the lock. -/
theorem Witnessed.load {slot began : Nat} (reached : (page_machine words).Reachable page)
    (calling : page.readers id = .load slot began)
    (stepped : page.step words (.reader id) = some next) :
    Witnessed words id slot began ⟨page.record words slot, page.holder, page.unlocks⟩ page next where
  reached := reached
  calling := calling
  moment := rfl
  since := by
    have moved : ((page_machine words).after page).step page (.reader id) = some next := stepped
    apply Machine.Reach.move (.start rfl) _ moved
    intro slot same
    cases same

theorem readers_kept {action : Action} (stepped : page.step words action = some next)
    (not_own : action ≠ .reader id) (no_call : ∀ slot, action ≠ .read id slot) :
    next.readers id = page.readers id := by
  cases action with
  | writer other spurious =>
      simp only [Page.step, Page.writer_step] at stepped
      split at stepped
      · cases stepped
      · cases stepped
      · cases stepped
        rfl
      · split at stepped
        · cases stepped
          rfl
        · split at stepped
          · cases stepped
            rfl
          · cases stepped
            rfl
      · cases stepped
        rfl
  | read other slot =>
      have different : id ≠ other := by
        rintro rfl
        exact no_call slot rfl
      simp only [Page.step] at stepped
      split at stepped
      · cases stepped
        exact Function.update_of_ne different _ _
      · cases stepped
        exact Function.update_of_ne different _ _
      · cases stepped
  | reader other =>
      have different : id ≠ other := by
        rintro rfl
        exact not_own rfl
      simp only [Page.step, Page.reader_step] at stepped
      split at stepped
      · cases stepped
      · cases stepped
      · split at stepped
        · cases stepped
          exact Function.update_of_ne different _ _
        · cases stepped
          exact Function.update_of_ne different _ _
      · split at stepped
        · cases stepped
          exact Function.update_of_ne different _ _
        · cases stepped
          exact Function.update_of_ne different _ _
      · split at stepped
        · cases stepped
          exact Function.update_of_ne different _ _
        · split at stepped
          · cases stepped
            exact Function.update_of_ne different _ _
          · cases stepped
            exact Function.update_of_ne different _ _
  | lock | store | set_free | unlock =>
      simp only [Page.step] at stepped
      split at stepped
      · cases stepped
        rfl
      · cases stepped
  | own | disown =>
      cases stepped
      rfl

/-- What the reader itself does. -/
theorem Reader.Follows.reader_step (reached : (page_machine words).Reachable page)
    (follows : (page.readers id).Follows page words id)
    (stepped : page.step words (.reader id) = some next) :
    (next.readers id).Follows next words id := by
  have moved : page.reader_step words id = some next := stepped
  have no_call : ∀ slot, Action.reader id ≠ .read id slot := fun _ same => by cases same
  unfold Page.reader_step at moved
  split at moved
  · cases moved
  · cases moved
  · split at moved
    · cases moved
      rw [Page.readers_read_at]
      exact fun taken => absurd rfl taken
    · cases moved
      rw [Page.readers_read_at]
      trivial
  · rename_i slot began stage
    have load := Witnessed.load reached stage stepped
    split at moved
    · cases moved
      rw [Page.readers_read_at]
      exact fun _ => ⟨page, load⟩
    · cases moved
      rw [Page.readers_read_at]
      exact ⟨page, load⟩
  · rename_i slot began lock_val out moment stage
    rw [stage] at follows
    obtain ⟨before, witnessed⟩ := follows
    have later := witnessed.move no_call stepped
    split at moved
    · cases moved
      rw [Page.readers_read_at]
      exact ⟨before, later⟩
    · split at moved
      · cases moved
        rw [Page.readers_read_at]
        exact fun _ => ⟨before, later⟩
      · cases moved
        rw [Page.readers_read_at]
        exact fun _ => ⟨before, later⟩

theorem Reader.Follows.kept {reader : Reader} {action : Action}
    (follows : reader.Follows page words id) (no_call : ∀ slot, action ≠ .read id slot)
    (stepped : page.step words action = some next) : reader.Follows next words id := by
  cases reader with
  | copy slot began lock_val out moment =>
      obtain ⟨before, witnessed⟩ := follows
      exact ⟨before, witnessed.move no_call stepped⟩
  | done slot began status out moment ended =>
      intro taken
      obtain ⟨before, witnessed⟩ := follows taken
      exact ⟨before, witnessed.move no_call stepped⟩
  | idle | check | load => trivial

/-- The moment of a read is a state of the run, while the call was under way. -/
theorem moment_witnessed (reached : (page_machine words).Reachable page) (id : Nat) :
    (page.readers id).Follows page words id := by
  apply reached.invariant_reached
  · rintro page ⟨-, readers, -, -⟩
    rw [readers id]
    trivial
  · intro page action next reached follows _ moved
    have stepped : page.step words action = some next := moved
    by_cases own : action = .reader id
    · rw [own] at stepped
      exact follows.reader_step reached stepped
    · by_cases call : ∃ slot, action = .read id slot
      · obtain ⟨slot, rfl⟩ := call
        simp only [Page.step] at stepped
        split at stepped
        · cases stepped
          rw [Page.readers_read_at]
          trivial
        · cases stepped
          rw [Page.readers_read_at]
          trivial
        · cases stepped
      · have no_call : ∀ slot, action ≠ .read id slot := fun slot same => call ⟨slot, same⟩
        rw [readers_kept stepped own no_call]
        exact follows.kept no_call stepped

/-- A read that reports success returns the record as it was when the reader
loaded the lock for the first time, in a state of the run in which nobody held
the lock. -/
theorem reads_not_torn (reached : (page_machine words).Reachable page) :
    ∀ id slot began out moment ended,
      page.readers id = .done slot began .kOk out moment ended → ended - began < 32 →
      out = moment.record ∧ moment.holder = none ∧
        ∃ before, Witnessed words id slot began moment before page ∧
          out = before.record words slot ∧ before.holder = none := by
  intro id slot began out moment ended returned few
  have sound := (page_sound reached).readers id
  have follows := moment_witnessed reached id
  rw [returned] at sound follows
  obtain ⟨record, unheld⟩ := sound rfl few
  obtain ⟨before, witnessed⟩ := follows (fun same => by cases same)
  refine ⟨record, unheld, before, witnessed, ?_, ?_⟩
  · rw [record, witnessed.moment]
  · rw [witnessed.moment] at unheld
    exact unheld

def Page.filled (key value : Nat) : Page where
  version_lock := USED_BIT
  free_slots := fun slot => slot != 0
  data := fun _ word => if word = 0 then key else value
  writers := fun _ => .idle
  readers := fun _ => .idle
  holder := none
  unlocks := 0

/-- An update between the test of the free bit and the copy. -/
def read_during_update : List Action :=
  [.read 0 0, .reader 0, .lock 5 false, .writer 5 false, .writer 5 false, .store 5 0 1 9, .own,
    .unlock 5, .writer 5 false, .reader 0, .reader 0, .reader 0, .reader 0]

theorem reads_not_torn_during_update :
    ∃ page moment, (page_machine 2).run (Page.filled 7 8) read_during_update = some page ∧
      page.readers 0 = .done 0 0 .kOk [7, 9] moment 1 ∧ moment.record = [7, 9] ∧
      moment.holder = none := by
  obtain ⟨page, moment, ran, returned⟩ : ∃ page moment,
      (page_machine 2).run (Page.filled 7 8) read_during_update = some page ∧
        page.readers 0 = .done 0 0 .kOk [7, 9] moment 1 := ⟨_, _, rfl, rfl⟩
  have reached : (page_machine 2).Reachable page :=
    .run (.start ⟨fun _ => rfl, fun _ => rfl, rfl, rfl⟩) ran
  obtain ⟨record, unheld, -⟩ := reads_not_torn reached 0 0 0 [7, 9] moment 1 returned (by decide)
  exact ⟨page, moment, ran, returned, record.symm, unheld⟩

end Hiom.Viper.Seqlock
