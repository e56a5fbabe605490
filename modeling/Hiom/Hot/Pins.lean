import Hiom.Lib.Machine
import Hiom.Hot.SlotState
import Mathlib

/-!
The slots of HotTier under clients that put, remove and warm keys, evictions,
and flushers that unpin the slots of the entries they have applied. Every
atomic operation on a slot, on the metadata of a bucket or on the commit buffer
is a step.
-/

namespace Hiom.HotTier

def kMaxUpsertRetries : Nat := 16
def kMaxBackpressureRetries : Nat := 32

def pack (fp off : Nat) : Nat := (fp <<< 32) ||| off
def unpack_fp (v : Nat) : Nat := v >>> 32

def bucket_index (num_buckets fingerprint : Nat) : Nat :=
  let h := fingerprint ^^^ (fingerprint >>> 16)
  let h := (h * 0x85ebca6b9c1cdcb) % 2 ^ 64
  let h := h ^^^ (h >>> 13)
  h &&& (num_buckets - 1)

structure SlotRef where
  bucket_idx : Nat
  slot_idx : Nat
  valid : Bool
  deriving DecidableEq

def SlotRef.invalid : SlotRef := ⟨2 ^ 64 - 1, 0, false⟩

structure CommitEntry where
  fp : Nat
  hot_slot : SlotRef
  deriving DecidableEq

structure BucketMeta where
  visited : Nat → Bool
  hand : Nat
  state : BitVec 32

/-- A call of `upsert_pinned` by a put, or of `upsert` by a read that warms the
key. `attempt` counts how often the put has called before. -/
structure Upsert where
  pins : Bool
  fingerprint : Nat
  offset : Nat
  attempt : Nat
  retry : Nat

/-- Where a client is. `evict` stages are those of `sieve_evict`, with `k` slots
behind the hand. -/
inductive Client where
  | idle
  | probe (call : Upsert) (i : Nat) (first_empty : Option Nat)
  | replace (call : Upsert) (i v : Nat)
  | evict_begin (call : Upsert)
  | evict_state (call : Upsert) (hand k : Nat)
  | evict_visited (call : Upsert) (hand k : Nat)
  | evict_load (call : Upsert) (hand k : Nat)
  | evict_clear (call : Upsert) (hand k expected : Nat)
  | evict_hand (call : Upsert) (i : Nat)
  | claim (call : Upsert) (i : Nat)
  | visit (call : Upsert) (i : Nat) (visited : Bool)
  | force_or (call : Upsert) (i : Nat)
  | force_and (call : Upsert) (i : Nat)
  | push (entry : CommitEntry)
  | remove (fingerprint i : Nat)
  | remove_clear (fingerprint i expected : Nat)
  | remove_visit (fingerprint i : Nat)

/-- Where a flusher is. `cas` is `cas_state`, the second one of an entry if
`second`; `cur` is the word it has loaded. -/
inductive Flusher where
  | idle
  | gather (batch : List CommitEntry)
  | unpin (rest : List CommitEntry)
  | cas (second : Bool) (slot : SlotRef) (cur : Option (BitVec 32)) (rest : List CommitEntry)

structure State where
  slots : Nat → Nat → Nat
  metas : Nat → BucketMeta
  clients : Nat → Client
  flushers : Nat → Flusher
  buffer : List CommitEntry

/-- A put whose offset has no compact form pushes its entry at once. -/
inductive Action where
  | upsert_pinned (client fingerprint offset : Nat)
  | push_unencoded (client fingerprint : Nat)
  | upsert (client fingerprint offset : Nat)
  | lookup (bucket slot : Nat)
  | remove (client fingerprint : Nat)
  | client (client : Nat)
  | drain (flusher : Nat) (entry : CommitEntry)
  | apply (flusher : Nat)
  | flusher (flusher : Nat) (spurious : Bool)

def State.at (state : State) (id : Nat) (client : Client) : State :=
  { state with clients := Function.update state.clients id client }

def State.set_slot (state : State) (bucket i v : Nat) : State :=
  { state with
    slots := Function.update state.slots bucket (Function.update (state.slots bucket) i v) }

def State.set_meta (state : State) (bucket : Nat) (value : BucketMeta) : State :=
  { state with metas := Function.update state.metas bucket value }

def State.set_state (state : State) (bucket : Nat) (word : BitVec 32) : State :=
  state.set_meta bucket { state.metas bucket with state := word }

def State.set_visited (state : State) (bucket i : Nat) (visited : Bool) : State :=
  state.set_meta bucket { state.metas bucket with
    visited := Function.update (state.metas bucket).visited i visited }

/-- How a call goes on that has not placed its key: a put drains the commit
buffer and calls again, and in the end leaves the key to the cold tier. -/
def Upsert.failed (call : Upsert) : Client :=
  if call.pins then
    if call.attempt < kMaxBackpressureRetries then
      .probe { call with attempt := call.attempt + 1, retry := 0 } 0 none
    else .push ⟨call.fingerprint, .invalid⟩
  else .idle

def Upsert.again (call : Upsert) : Client :=
  if call.retry + 1 < kMaxUpsertRetries then .probe { call with retry := call.retry + 1 } 0 none
  else call.failed

section

variable (num_buckets : Nat)

def Upsert.bucket (call : Upsert) : Nat := bucket_index num_buckets call.fingerprint

def State.client_step (state : State) (id : Nat) : Option State :=
  match state.clients id with
  | .idle => none
  | .probe call i first_empty =>
      let b := call.bucket num_buckets
      if i < kSlotsPerBucket then
        let v := state.slots b i
        if unpack_fp v = call.fingerprint then some (state.at id (.replace call i v))
        else if unpack_fp v = 0 ∧ first_empty = none then
          some (state.at id (.probe call (i + 1) (some i)))
        else some (state.at id (.probe call (i + 1) first_empty))
      else
        match first_empty with
        | some target_idx => some (state.at id (.claim call target_idx))
        | none => some (state.at id (.evict_begin call))
  | .replace call i v =>
      let b := call.bucket num_buckets
      if state.slots b i = v then
        some ((state.set_slot b i (pack call.fingerprint call.offset)).at id (.visit call i true))
      else some (state.at id call.again)
  | .evict_begin call =>
      some (state.at id (.evict_state call (state.metas (call.bucket num_buckets)).hand 0))
  | .evict_state call hand k =>
      if k < 2 * kSlotsPerBucket then
        let word := (state.metas (call.bucket num_buckets)).state
        if get_state word ((hand + k) % kSlotsPerBucket) = SlotState.kUnpinned.bits then
          some (state.at id (.evict_visited call hand k))
        else some (state.at id (.evict_state call hand (k + 1)))
      else some (state.at id call.failed)
  | .evict_visited call hand k =>
      let b := call.bucket num_buckets
      let i := (hand + k) % kSlotsPerBucket
      if (state.metas b).visited i then
        some ((state.set_visited b i false).at id (.evict_state call hand (k + 1)))
      else some (state.at id (.evict_load call hand k))
  | .evict_load call hand k =>
      let i := (hand + k) % kSlotsPerBucket
      let expected := state.slots (call.bucket num_buckets) i
      if expected = 0 then some (state.at id (.evict_hand call i))
      else some (state.at id (.evict_clear call hand k expected))
  | .evict_clear call hand k expected =>
      let b := call.bucket num_buckets
      let i := (hand + k) % kSlotsPerBucket
      if state.slots b i = expected then
        some ((state.set_slot b i 0).at id (.evict_hand call i))
      else some (state.at id (.evict_state call hand (k + 1)))
  | .evict_hand call i =>
      let b := call.bucket num_buckets
      some ((state.set_meta b { state.metas b with hand := (i + 1) % kSlotsPerBucket }).at id
        (.claim call i))
  | .claim call i =>
      let b := call.bucket num_buckets
      if state.slots b i = 0 then
        some ((state.set_slot b i (pack call.fingerprint call.offset)).at id (.visit call i false))
      else some (state.at id call.again)
  | .visit call i visited =>
      some ((state.set_visited (call.bucket num_buckets) i visited).at id
        (if call.pins then .force_or call i else .idle))
  | .force_or call i =>
      let b := call.bucket num_buckets
      some ((state.set_state b ((state.metas b).state ||| pin_bit i)).at id (.force_and call i))
  | .force_and call i =>
      let b := call.bucket num_buckets
      some ((state.set_state b ((state.metas b).state &&& ~~~flush_bit i)).at id
        (.push ⟨call.fingerprint, ⟨b, i, true⟩⟩))
  | .push entry => some { state.at id .idle with buffer := state.buffer ++ [entry] }
  | .remove fingerprint i =>
      if i < kSlotsPerBucket then
        let expected := state.slots (bucket_index num_buckets fingerprint) i
        if unpack_fp expected = fingerprint then
          some (state.at id (.remove_clear fingerprint i expected))
        else some (state.at id (.remove fingerprint (i + 1)))
      else some (state.at id (.push ⟨fingerprint, .invalid⟩))
  | .remove_clear fingerprint i expected =>
      let b := bucket_index num_buckets fingerprint
      if state.slots b i = expected then
        some ((state.set_slot b i 0).at id (.remove_visit fingerprint i))
      else some (state.at id (.remove fingerprint 0))
  | .remove_visit fingerprint i =>
      some ((state.set_visited (bucket_index num_buckets fingerprint) i false).at id
        (.push ⟨fingerprint, .invalid⟩))

end

def cas_from (second : Bool) : SlotState := if second then .kInFlush else .kPinned
def cas_to (second : Bool) : SlotState := if second then .kUnpinned else .kInFlush

def State.flush_at (state : State) (id : Nat) (flusher : Flusher) : State :=
  { state with flushers := Function.update state.flushers id flusher }

def Flusher.loaded (second : Bool) (slot : SlotRef) (cur : BitVec 32) (rest : List CommitEntry) :
    Flusher :=
  if in_state cur slot.slot_idx (cas_from second) then .cas second slot (some cur) rest
  else .unpin rest

def State.flusher_step (state : State) (id : Nat) (spurious : Bool) : Option State :=
  match state.flushers id with
  | .idle | .gather _ => none
  | .unpin [] => some (state.flush_at id .idle)
  | .unpin (entry :: rest) =>
      if entry.hot_slot.valid then
        some (state.flush_at id (.cas false entry.hot_slot none rest))
      else some (state.flush_at id (.unpin rest))
  | .cas second slot none rest =>
      some (state.flush_at id (.loaded second slot (state.metas slot.bucket_idx).state rest))
  | .cas second slot (some cur) rest =>
      let word := (state.metas slot.bucket_idx).state
      if word = cur ∧ spurious = false then
        some ((state.set_state slot.bucket_idx
          (with_state cur slot.slot_idx (cas_to second))).flush_at id
            (if second then .unpin rest else .cas true slot none rest))
      else some (state.flush_at id (.loaded second slot word rest))

def State.step (num_buckets : Nat) (state : State) : Action → Option State
  | .upsert_pinned id fingerprint offset =>
      match state.clients id with
      | .idle => some (state.at id (.probe ⟨true, fingerprint, offset, 0, 0⟩ 0 none))
      | _ => none
  | .push_unencoded id fingerprint =>
      match state.clients id with
      | .idle => some (state.at id (.push ⟨fingerprint, .invalid⟩))
      | _ => none
  | .upsert id fingerprint offset =>
      match state.clients id with
      | .idle => some (state.at id (.probe ⟨false, fingerprint, offset, 0, 0⟩ 0 none))
      | _ => none
  | .lookup bucket i => some (state.set_visited bucket i true)
  | .remove id fingerprint =>
      match state.clients id with
      | .idle => some (state.at id (.remove fingerprint 0))
      | _ => none
  | .client id => state.client_step num_buckets id
  | .drain id entry =>
      if entry ∈ state.buffer then
        match state.flushers id with
        | .idle =>
            some { state.flush_at id (.gather [entry]) with buffer := state.buffer.erase entry }
        | .gather batch =>
            some { state.flush_at id (.gather (batch ++ [entry])) with
              buffer := state.buffer.erase entry }
        | _ => none
      else none
  | .apply id =>
      match state.flushers id with
      | .gather batch => some (state.flush_at id (.unpin batch))
      | _ => none
  | .flusher id spurious => state.flusher_step id spurious

def State.empty : State where
  slots := fun _ _ => 0
  metas := fun _ => ⟨fun _ => false, 0, 0#32⟩
  clients := fun _ => .idle
  flushers := fun _ => .idle
  buffer := []

def machine (num_buckets : Nat) : Machine State Action where
  initial := fun state => state = State.empty
  step := State.step num_buckets

/-- The client is between its `upsert_pinned` and its push, and has not failed to
pin a slot. -/
def Client.Pinning : Client → Prop
  | .probe call .. | .replace call .. | .evict_begin call | .evict_state call ..
  | .evict_visited call .. | .evict_load call .. | .evict_clear call .. | .evict_hand call ..
  | .claim call .. | .visit call .. => call.pins = true
  | .force_or .. | .force_and .. => True
  | .push entry => entry.hot_slot.valid = true
  | _ => False

structure State.Quiescent (state : State) : Prop where
  buffer : state.buffer = []
  flushers : ∀ id, state.flushers id = .idle
  clients : ∀ id, ¬(state.clients id).Pinning

/-! ### Who will unpin a slot -/

def Client.owes (num_buckets : Nat) : Client → Option SlotRef
  | .force_and call i => some ⟨call.bucket num_buckets, i, true⟩
  | .push entry => some entry.hot_slot
  | _ => none

def Client.Owes (num_buckets : Nat) (slot : SlotRef) (client : Client) : Prop :=
  client.owes num_buckets = some slot

def Flusher.Owes (slot : SlotRef) : Flusher → Prop
  | .idle => False
  | .gather entries | .unpin entries => ∃ entry ∈ entries, entry.hot_slot = slot
  | .cas second named _ rest =>
      second = false ∧ named = slot ∨ ∃ entry ∈ rest, entry.hot_slot = slot

def Flusher.Unpins (slot : SlotRef) : Flusher → Prop
  | .cas second named _ _ => second = true ∧ named = slot
  | _ => False

def Flusher.Sound : Flusher → Prop
  | .cas second slot (some cur) _ =>
      slot.valid = true ∧ in_state cur slot.slot_idx (cas_from second) = true
  | .cas _ slot none _ => slot.valid = true
  | _ => True

def State.Owed (num_buckets : Nat) (state : State) (slot : SlotRef) : Prop :=
  (∃ id, (state.clients id).Owes num_buckets slot) ∨
  (∃ entry ∈ state.buffer, entry.hot_slot = slot) ∨
  ∃ id, (state.flushers id).Owes slot

/-- A pinned slot is named by an entry that is yet to be flushed, and a slot in
flush has a flusher that will unpin it. -/
structure SlotSound (num_buckets : Nat) (state : State) (b i : Nat) : Prop where
  owed : pinned (state.metas b).state i = true → flushing (state.metas b).state i = false →
    state.Owed num_buckets ⟨b, i, true⟩
  unpins : flushing (state.metas b).state i = true →
    pinned (state.metas b).state i = true ∧ ∃ id, (state.flushers id).Unpins ⟨b, i, true⟩

structure Sound (num_buckets : Nat) (state : State) : Prop where
  slots : ∀ b i, i < kSlotsPerBucket → SlotSound num_buckets state b i
  flushers : ∀ id, (state.flushers id).Sound

variable {num_buckets : Nat} {state next : State} {id : Nat}

theorem Sound.quiescent (sound : Sound num_buckets state) (quiescent : state.Quiescent) {b i : Nat}
    (low : i < kSlotsPerBucket) :
    get_state (state.metas b).state i = SlotState.kUnpinned.bits := by
  have slot := sound.slots b i low
  have unflushed : flushing (state.metas b).state i = false := by
    by_contra flushed
    obtain ⟨-, flusher, unpins⟩ := slot.unpins ((Bool.not_eq_false _).mp flushed)
    rw [quiescent.flushers flusher] at unpins
    exact unpins
  have unpinned : pinned (state.metas b).state i = false := by
    by_contra pinned
    rcases slot.owed ((Bool.not_eq_false _).mp pinned) unflushed with
      ⟨client, owes⟩ | ⟨entry, member, -⟩ | ⟨flusher, owes⟩
    · apply quiescent.clients client
      cases stage : state.clients client <;> rw [stage] at owes
      case force_and => trivial
      case push entry =>
        change entry.hot_slot.valid = true
        rw [Option.some.inj owes]
      all_goals cases owes
    · rw [quiescent.buffer] at member
      cases member
    · rw [quiescent.flushers flusher] at owes
      exact owes
  exact get_state_eq unpinned unflushed

/-- What a step of a client may do to the state of a slot: pin it when it owes an
entry for it, or take it out of flush. -/
structure Pins (num_buckets : Nat) (before after : BitVec 32) (stage : Client) (b i : Nat) :
    Prop where
  owed : pinned after i = true → flushing after i = false →
    pinned before i = true ∧ flushing before i = false ∨ stage.Owes num_buckets ⟨b, i, true⟩
  flushing : flushing after i = true →
    flushing before i = true ∧ (pinned before i = true → pinned after i = true)

theorem Pins.same (word : BitVec 32) (stage : Client) (b i : Nat) :
    Pins num_buckets word word stage b i :=
  ⟨fun pin unflushed => .inl ⟨pin, unflushed⟩, fun flush => ⟨flush, fun pin => pin⟩⟩

theorem Sound.client {stage : Client} (sound : Sound num_buckets state)
    (words : ∀ b i, i < kSlotsPerBucket →
      Pins num_buckets (state.metas b).state (next.metas b).state stage b i)
    (clients : next.clients = Function.update state.clients id stage)
    (buffer : next.buffer = state.buffer) (flushers : next.flushers = state.flushers)
    (owes : ∀ b i, (state.clients id).Owes num_buckets ⟨b, i, true⟩ →
      stage.Owes num_buckets ⟨b, i, true⟩) : Sound num_buckets next := by
  have mine : next.clients id = stage := by rw [clients, Function.update_self]
  refine ⟨fun b i low => ?_, fun other => ?_⟩
  · obtain ⟨owed, unpins⟩ := sound.slots b i low
    have change := words b i low
    refine ⟨fun pin unflushed => ?_, fun flush => ?_⟩
    · rcases change.owed pin unflushed with ⟨pin, unflushed⟩ | new
      · rcases owed pin unflushed with ⟨other, owed⟩ | ⟨entry, member, same⟩ | ⟨flusher, owed⟩
        · refine .inl ⟨other, ?_⟩
          rw [clients, Function.update_apply]
          split
          · rename_i here
            subst here
            exact owes b i owed
          · exact owed
        · refine .inr (.inl ⟨entry, ?_, same⟩)
          rwa [buffer]
        · refine .inr (.inr ⟨flusher, ?_⟩)
          rwa [flushers]
      · exact .inl ⟨id, mine ▸ new⟩
    · obtain ⟨before, kept⟩ := change.flushing flush
      rw [flushers]
      exact (unpins before).imp_left kept
  · rw [flushers]
    exact sound.flushers other

theorem Sound.force_or {call : Upsert} {i : Nat} (sound : Sound num_buckets state)
    (stage : state.clients id = .force_or call i) :
    Sound num_buckets ((state.set_state (call.bucket num_buckets)
      ((state.metas (call.bucket num_buckets)).state ||| pin_bit i)).at id (.force_and call i)) := by
  refine sound.client (fun b j low => ?_) rfl rfl rfl (fun b j owes => ?_)
  · by_cases here : b = call.bucket num_buckets
    · subst here
      simp only [State.at, State.set_state, State.set_meta, Function.update_self]
      refine ⟨fun pin unflushed => ?_, fun flush => ?_⟩
      · rw [fetch_or_pinned low] at pin
        rw [fetch_or_flushing low] at unflushed
        by_cases same : j = i
        · subst same
          exact .inr rfl
        · simp only [same, decide_false, Bool.or_false] at pin
          exact .inl ⟨pin, unflushed⟩
      · rw [fetch_or_flushing low] at flush
        exact ⟨flush, fun pin => by rw [fetch_or_pinned low, pin, Bool.true_or]⟩
    · simp only [State.at, State.set_state, State.set_meta, Function.update_of_ne here]
      exact Pins.same _ _ _ _
  · rw [stage] at owes
    cases owes

theorem Sound.force_and {call : Upsert} {i : Nat} (sound : Sound num_buckets state)
    (stage : state.clients id = .force_and call i) :
    Sound num_buckets ((state.set_state (call.bucket num_buckets)
      ((state.metas (call.bucket num_buckets)).state &&& ~~~flush_bit i)).at id
        (.push ⟨call.fingerprint, ⟨call.bucket num_buckets, i, true⟩⟩)) := by
  refine sound.client (fun b j low => ?_) rfl rfl rfl (fun b j owes => ?_)
  · by_cases here : b = call.bucket num_buckets
    · subst here
      simp only [State.at, State.set_state, State.set_meta, Function.update_self]
      refine ⟨fun pin unflushed => ?_, fun flush => ?_⟩
      · rw [fetch_and_pinned low] at pin
        rw [fetch_and_flushing low] at unflushed
        by_cases same : j = i
        · subst same
          exact .inr rfl
        · simp only [same, decide_false, Bool.not_false, Bool.and_true] at unflushed
          exact .inl ⟨pin, unflushed⟩
      · rw [fetch_and_flushing low, Bool.and_eq_true] at flush
        exact ⟨flush.1, fun pin => by rw [fetch_and_pinned low, pin]⟩
    · simp only [State.at, State.set_state, State.set_meta, Function.update_of_ne here]
      exact Pins.same _ _ _ _
  · rw [stage] at owes
    exact owes

/-- The push of an entry. -/
theorem Sound.push {entry : CommitEntry} (sound : Sound num_buckets state)
    (stage : state.clients id = .push entry) :
    Sound num_buckets { state.at id .idle with buffer := state.buffer ++ [entry] } := by
  refine ⟨fun b i low => ?_, sound.flushers⟩
  obtain ⟨owed, unpins⟩ := sound.slots b i low
  refine ⟨fun pin unflushed => ?_, unpins⟩
  rcases owed pin unflushed with ⟨other, owed⟩ | ⟨old, member, same⟩ | flusher
  · by_cases here : other = id
    · subst here
      rw [stage] at owed
      exact .inr (.inl ⟨entry, List.mem_append_right _ List.mem_cons_self, Option.some.inj owed⟩)
    · refine .inl ⟨other, ?_⟩
      simpa only [State.at, Function.update_of_ne here] using owed
  · exact .inr (.inl ⟨old, List.mem_append_left _ member, same⟩)
  · exact .inr (.inr flusher)

/-- A step of a client that owes nothing yet, and touches no state. -/
theorem Sound.quiet {stage : Client} (sound : Sound num_buckets state)
    (words : ∀ b, (next.metas b).state = (state.metas b).state)
    (clients : next.clients = Function.update state.clients id stage)
    (buffer : next.buffer = state.buffer) (flushers : next.flushers = state.flushers)
    (owes : (state.clients id).owes num_buckets = none) : Sound num_buckets next := by
  refine sound.client (fun b i _ => ?_) clients buffer flushers
    (fun _ _ owed => nomatch owes.symm.trans owed)
  rw [words]
  exact Pins.same _ _ _ _

theorem set_meta_state {b : Nat} {value : BucketMeta}
    (same : value.state = (state.metas b).state) (other : Nat) :
    ((state.set_meta b value).metas other).state = (state.metas other).state := by
  simp only [State.set_meta, Function.update_apply]
  split
  · rename_i here
    rw [same, here]
  · rfl

theorem Sound.client_step (sound : Sound num_buckets state)
    (stepped : state.client_step num_buckets id = some next) : Sound num_buckets next := by
  simp only [State.client_step] at stepped
  split at stepped <;> rename_i stage
  · cases stepped
  · -- probe
    have owes : (state.clients id).owes num_buckets = none := by rw [stage]; rfl
    split at stepped
    · split at stepped
      · cases stepped
        exact sound.quiet (fun _ => rfl) rfl rfl rfl owes
      · split at stepped <;> cases stepped
        · exact sound.quiet (fun _ => rfl) rfl rfl rfl owes
        · exact sound.quiet (fun _ => rfl) rfl rfl rfl owes
    · split at stepped <;> cases stepped
      · exact sound.quiet (fun _ => rfl) rfl rfl rfl owes
      · exact sound.quiet (fun _ => rfl) rfl rfl rfl owes
  · -- replace
    have owes : (state.clients id).owes num_buckets = none := by rw [stage]; rfl
    split at stepped <;> cases stepped
    · exact sound.quiet (fun _ => rfl) rfl rfl rfl owes
    · exact sound.quiet (fun _ => rfl) rfl rfl rfl owes
  · -- evict_begin
    have owes : (state.clients id).owes num_buckets = none := by rw [stage]; rfl
    cases stepped
    exact sound.quiet (fun _ => rfl) rfl rfl rfl owes
  · -- evict_state
    have owes : (state.clients id).owes num_buckets = none := by rw [stage]; rfl
    split at stepped
    · split at stepped <;> cases stepped
      · exact sound.quiet (fun _ => rfl) rfl rfl rfl owes
      · exact sound.quiet (fun _ => rfl) rfl rfl rfl owes
    · cases stepped
      exact sound.quiet (fun _ => rfl) rfl rfl rfl owes
  · -- evict_visited
    have owes : (state.clients id).owes num_buckets = none := by rw [stage]; rfl
    split at stepped <;> cases stepped
    · exact sound.quiet (set_meta_state rfl) rfl rfl rfl owes
    · exact sound.quiet (fun _ => rfl) rfl rfl rfl owes
  · -- evict_load
    have owes : (state.clients id).owes num_buckets = none := by rw [stage]; rfl
    split at stepped <;> cases stepped
    · exact sound.quiet (fun _ => rfl) rfl rfl rfl owes
    · exact sound.quiet (fun _ => rfl) rfl rfl rfl owes
  · -- evict_clear
    have owes : (state.clients id).owes num_buckets = none := by rw [stage]; rfl
    split at stepped <;> cases stepped
    · exact sound.quiet (fun _ => rfl) rfl rfl rfl owes
    · exact sound.quiet (fun _ => rfl) rfl rfl rfl owes
  · -- evict_hand
    cases stepped
    exact sound.quiet (set_meta_state rfl) rfl rfl rfl (by rw [stage]; rfl)
  · -- claim
    have owes : (state.clients id).owes num_buckets = none := by rw [stage]; rfl
    split at stepped <;> cases stepped
    · exact sound.quiet (fun _ => rfl) rfl rfl rfl owes
    · exact sound.quiet (fun _ => rfl) rfl rfl rfl owes
  · -- visit
    cases stepped
    exact sound.quiet (set_meta_state rfl) rfl rfl rfl (by rw [stage]; rfl)
  · -- force_or
    cases stepped
    exact sound.force_or stage
  · -- force_and
    cases stepped
    exact sound.force_and stage
  · -- push
    cases stepped
    exact sound.push stage
  · -- remove
    have owes : (state.clients id).owes num_buckets = none := by rw [stage]; rfl
    split at stepped
    · split at stepped <;> cases stepped
      · exact sound.quiet (fun _ => rfl) rfl rfl rfl owes
      · exact sound.quiet (fun _ => rfl) rfl rfl rfl owes
    · cases stepped
      exact sound.quiet (fun _ => rfl) rfl rfl rfl owes
  · -- remove_clear
    have owes : (state.clients id).owes num_buckets = none := by rw [stage]; rfl
    split at stepped <;> cases stepped
    · exact sound.quiet (fun _ => rfl) rfl rfl rfl owes
    · exact sound.quiet (fun _ => rfl) rfl rfl rfl owes
  · -- remove_visit
    cases stepped
    exact sound.quiet (set_meta_state rfl) rfl rfl rfl (by rw [stage]; rfl)

/-! ### Flushers -/

/-- A step of a flusher that leaves the states of all slots alone: what it owed
it still owes, or the slot needs no one to unpin it. -/
theorem Sound.flush_at {stage : Flusher} (sound : Sound num_buckets state) (valid : stage.Sound)
    (owes : ∀ b i, i < kSlotsPerBucket → (state.flushers id).Owes ⟨b, i, true⟩ →
      stage.Owes ⟨b, i, true⟩ ∨
        ¬(pinned (state.metas b).state i = true ∧ flushing (state.metas b).state i = false))
    (unpins : ∀ b i, i < kSlotsPerBucket → (state.flushers id).Unpins ⟨b, i, true⟩ →
      stage.Unpins ⟨b, i, true⟩ ∨ flushing (state.metas b).state i = false) :
    Sound num_buckets (state.flush_at id stage) := by
  refine ⟨fun b i low => ?_, fun other => ?_⟩
  · obtain ⟨owed, unpin⟩ := sound.slots b i low
    refine ⟨fun pin unflushed => ?_, fun flush => ?_⟩
    · rcases owed pin unflushed with client | entry | ⟨other, owed⟩
      · exact .inl client
      · exact .inr (.inl entry)
      · refine .inr (.inr ⟨other, ?_⟩)
        simp only [State.flush_at, Function.update_apply]
        split
        · rename_i here
          subst here
          exact (owes b i low owed).resolve_right (fun moot => moot ⟨pin, unflushed⟩)
        · exact owed
    · obtain ⟨pin, other, unpinning⟩ := unpin flush
      refine ⟨pin, other, ?_⟩
      simp only [State.flush_at, Function.update_apply]
      split
      · rename_i here
        subst here
        refine (unpins b i low unpinning).resolve_right (fun moot => ?_)
        cases flush.symm.trans moot
      · exact unpinning
  · simp only [State.flush_at, Function.update_apply]
    split
    · exact valid
    · exact sound.flushers other

/-- What the two bits of a slot are in the states that `cas_state` goes from. -/
theorem cas_from_iff {word : BitVec 32} {i : Nat} (low : i < kSlotsPerBucket) (second : Bool) :
    in_state word i (cas_from second) = true ↔ pinned word i = true ∧ flushing word i = second := by
  rw [in_state_iff low]
  cases second <;> rfl

/-- Load the word, and give up unless the slot is in the state to go from. -/
theorem Sound.loaded {second : Bool} {slot : SlotRef} {cur : Option (BitVec 32)}
    {rest : List CommitEntry} (sound : Sound num_buckets state)
    (stage : state.flushers id = .cas second slot cur rest) (valid : slot.valid = true) :
    Sound num_buckets (state.flush_at id
      (.loaded second slot (state.metas slot.bucket_idx).state rest)) := by
  unfold Flusher.loaded
  split
  · rename_i found
    refine sound.flush_at ⟨valid, found⟩ (fun b i _ owes => ?_) (fun b i _ unpins => ?_)
    · rw [stage] at owes
      exact .inl owes
    · rw [stage] at unpins
      exact .inl unpins
  · rename_i other
    refine sound.flush_at trivial (fun b i low owes => ?_) (fun b i low unpins => ?_)
    · rw [stage] at owes
      rcases owes with ⟨rfl, rfl⟩ | behind
      · exact .inr (fun still => other ((cas_from_iff low false).mpr still))
      · exact .inl behind
    · rw [stage] at unpins
      obtain ⟨rfl, rfl⟩ := unpins
      refine .inr ?_
      by_contra flush
      have flushed := (Bool.not_eq_false _).mp flush
      exact other ((cas_from_iff low true).mpr ⟨((sound.slots b i low).unpins flushed).1, flushed⟩)

/-- The other slots keep their bits when `cas_state` succeeds. -/
theorem with_state_elsewhere {slot : SlotRef} {cur : BitVec 32} {b i : Nat} (goal : SlotState)
    (word : (state.metas slot.bucket_idx).state = cur) (low : i < kSlotsPerBucket)
    (other : ¬(b = slot.bucket_idx ∧ i = slot.slot_idx)) :
    let after := state.set_state slot.bucket_idx (with_state cur slot.slot_idx goal)
    pinned (after.metas b).state i = pinned (state.metas b).state i ∧
      flushing (after.metas b).state i = flushing (state.metas b).state i := by
  intro after
  by_cases bucket : b = slot.bucket_idx
  · subst bucket
    have away : i ≠ slot.slot_idx := fun same => other ⟨rfl, same⟩
    simp only [after, State.set_state, State.set_meta, Function.update_self]
    rw [with_state_pinned low, with_state_flushing low, if_neg away, if_neg away, word]
    exact ⟨rfl, rfl⟩
  · simp only [after, State.set_state, State.set_meta, Function.update_of_ne bucket, and_self]

/-- A `cas_state` that succeeds. The first one leaves the slot in flush and the
flusher about to unpin it, the second one unpins it. -/
theorem Sound.swapped {second : Bool} {slot : SlotRef} {cur : BitVec 32}
    {rest : List CommitEntry} (sound : Sound num_buckets state)
    (stage : state.flushers id = .cas second slot (some cur) rest)
    (word : (state.metas slot.bucket_idx).state = cur) :
    Sound num_buckets ((state.set_state slot.bucket_idx
      (with_state cur slot.slot_idx (cas_to second))).flush_at id
        (if second then .unpin rest else .cas true slot none rest)) := by
  have valid : slot.valid = true := by
    have mine := sound.flushers id
    rw [stage] at mine
    exact mine.1
  refine ⟨fun b i low => ?_, fun other => ?_⟩
  · by_cases named : b = slot.bucket_idx ∧ i = slot.slot_idx
    · obtain ⟨rfl, rfl⟩ := named
      have itself : (⟨slot.bucket_idx, slot.slot_idx, true⟩ : SlotRef) = slot := by
        rw [← valid]
      constructor
      · intro pin unflushed
        simp only [State.flush_at, State.set_state, State.set_meta, Function.update_self]
          at pin unflushed
        rw [with_state_pinned low, if_pos rfl] at pin
        rw [with_state_flushing low, if_pos rfl] at unflushed
        cases second
        · cases unflushed
        · cases pin
      · intro flush
        simp only [State.flush_at, State.set_state, State.set_meta, Function.update_self]
          at flush ⊢
        rw [with_state_flushing low, if_pos rfl] at flush
        cases second
        · refine ⟨by rw [with_state_pinned low, if_pos rfl]; rfl, id, ?_⟩
          rw [Function.update_self]
          exact ⟨rfl, itself.symm⟩
        · cases flush
    · obtain ⟨pins, flushes⟩ := with_state_elsewhere (cas_to second) word low named
      have elsewhere : slot ≠ ⟨b, i, true⟩ := by
        intro same
        rw [same] at named
        exact named ⟨rfl, rfl⟩
      obtain ⟨owed, unpins⟩ := sound.slots b i low
      constructor
      · intro pin unflushed
        have pin := pins.symm.trans pin
        have unflushed := flushes.symm.trans unflushed
        rcases owed pin unflushed with client | entry | ⟨other, owed⟩
        · exact .inl client
        · exact .inr (.inl entry)
        · refine .inr (.inr ⟨other, ?_⟩)
          simp only [State.flush_at, Function.update_apply]
          split
          · rename_i here
            subst here
            rw [stage] at owed
            have behind := owed.resolve_left (fun mine => elsewhere mine.2)
            cases second
            · exact .inr behind
            · exact behind
          · exact owed
      · intro flush
        obtain ⟨pin, other, unpinning⟩ := unpins (flushes.symm.trans flush)
        refine ⟨pins.trans pin, other, ?_⟩
        simp only [State.flush_at, Function.update_apply]
        split
        · rename_i here
          subst here
          rw [stage] at unpinning
          exact absurd unpinning.2 elsewhere
        · exact unpinning
  · simp only [State.flush_at, Function.update_apply]
    split
    · cases second
      · exact valid
      · trivial
    · exact sound.flushers other

theorem Sound.flusher_step {spurious : Bool} (sound : Sound num_buckets state)
    (stepped : state.flusher_step id spurious = some next) : Sound num_buckets next := by
  have mine := sound.flushers id
  simp only [State.flusher_step] at stepped
  split at stepped <;> rename_i stage
  · cases stepped
  · cases stepped
  · -- the batch is done
    cases stepped
    refine sound.flush_at trivial (fun b i _ owes => ?_) (fun b i _ unpins => ?_)
    · rw [stage] at owes
      obtain ⟨entry, member, -⟩ := owes
      cases member
    · rw [stage] at unpins
      exact unpins.elim
  · rename_i entry rest
    split at stepped <;> cases stepped
    · rename_i valid
      refine sound.flush_at valid (fun b i _ owes => .inl ?_) (fun b i _ unpins => ?_)
      · rw [stage] at owes
        obtain ⟨other, member, names⟩ := owes
        rcases List.mem_cons.mp member with rfl | behind
        · exact .inl ⟨rfl, names⟩
        · exact .inr ⟨other, behind, names⟩
      · rw [stage] at unpins
        exact unpins.elim
    · rename_i invalid
      refine sound.flush_at trivial (fun b i _ owes => .inl ?_) (fun b i _ unpins => ?_)
      · rw [stage] at owes
        obtain ⟨other, member, names⟩ := owes
        rcases List.mem_cons.mp member with rfl | behind
        · rw [names] at invalid
          exact absurd rfl invalid
        · exact ⟨other, behind, names⟩
      · rw [stage] at unpins
        exact unpins.elim
  · cases stepped
    rw [stage] at mine
    exact sound.loaded stage mine
  · split at stepped <;> cases stepped
    · rename_i swapped
      exact sound.swapped stage swapped.1
    · rw [stage] at mine
      exact sound.loaded stage mine.1

/-! ### The other steps -/

/-- A client that was idle starts a call. -/
theorem Sound.called {stage : Client} (sound : Sound num_buckets state)
    (idle : state.clients id = .idle) : Sound num_buckets (state.at id stage) :=
  sound.quiet (fun _ => rfl) rfl rfl rfl (by rw [idle]; rfl)

theorem Sound.lookup {b i : Nat} (sound : Sound num_buckets state) :
    Sound num_buckets (state.set_visited b i true) := by
  refine ⟨fun bucket slot low => ?_, sound.flushers⟩
  obtain ⟨owed, unpins⟩ := sound.slots bucket slot low
  have same : ((state.set_visited b i true).metas bucket).state = (state.metas bucket).state := 
    set_meta_state (by rfl) bucket
  constructor
  · rw [same]
    exact owed
  · rw [same]
    exact unpins

/-- An entry moves from the buffer to the batch of a flusher. -/
theorem Sound.drained {entry : CommitEntry} {batch : List CommitEntry}
    (sound : Sound num_buckets state)
    (before : ∀ slot, (state.flushers id).Owes slot → ∃ old ∈ batch, old.hot_slot = slot)
    (unpins_none : ∀ slot, ¬(state.flushers id).Unpins slot) :
    Sound num_buckets { state.flush_at id (.gather (batch ++ [entry])) with
      buffer := state.buffer.erase entry } := by
  refine ⟨fun b i low => ?_, fun other => ?_⟩
  · obtain ⟨owed, unpins⟩ := sound.slots b i low
    constructor
    · intro pin unflushed
      rcases owed pin unflushed with client | ⟨old, member, names⟩ | ⟨other, owed⟩
      · exact .inl client
      · by_cases moved : old = entry
        · refine .inr (.inr ⟨id, ?_⟩)
          simp only [State.flush_at, Function.update_self]
          exact ⟨old, by simp [moved], names⟩
        · exact .inr (.inl ⟨old, (List.mem_erase_of_ne moved).mpr member, names⟩)
      · refine .inr (.inr ⟨other, ?_⟩)
        simp only [State.flush_at, Function.update_apply]
        split
        · rename_i here
          subst here
          obtain ⟨old, member, names⟩ := before _ owed
          exact ⟨old, List.mem_append_left _ member, names⟩
        · exact owed
    · intro flush
      obtain ⟨pin, other, unpinning⟩ := unpins flush
      refine ⟨pin, other, ?_⟩
      simp only [State.flush_at, Function.update_apply]
      split
      · rename_i here
        subst here
        exact absurd unpinning (unpins_none _)
      · exact unpinning
  · simp only [State.flush_at, Function.update_apply]
    split
    · trivial
    · exact sound.flushers other

theorem Sound.step {action : Action} (sound : Sound num_buckets state)
    (stepped : state.step num_buckets action = some next) : Sound num_buckets next := by
  cases action with
  | client => exact sound.client_step stepped
  | flusher => exact sound.flusher_step stepped
  | lookup =>
    cases stepped
    exact sound.lookup
  | drain id entry =>
    simp only [State.step] at stepped
    split at stepped
    · split at stepped <;> cases stepped
      · rename_i stage
        have before : ∀ slot, (state.flushers id).Owes slot →
            ∃ old ∈ ([] : List CommitEntry), old.hot_slot = slot := by
          rw [stage]
          exact fun slot owes => owes.elim
        apply sound.drained before
        rw [stage]
        exact fun slot unpins => unpins
      · rename_i stage
        apply sound.drained
        · rw [stage]
          exact fun slot owes => owes
        · rw [stage]
          exact fun slot unpins => unpins
    · cases stepped
  | apply id =>
    simp only [State.step] at stepped
    split at stepped <;> cases stepped
    rename_i batch stage
    have valid : (Flusher.unpin batch).Sound := trivial
    apply sound.flush_at valid
    · rw [stage]
      exact fun b i low owes => .inl owes
    · rw [stage]
      exact fun b i low unpins => unpins.elim
  | upsert_pinned | push_unencoded | upsert | remove =>
    simp only [State.step] at stepped
    split at stepped <;> cases stepped
    exact sound.called ‹_›

theorem Sound.reached (reached : (machine num_buckets).Reachable state) :
    Sound num_buckets state := by
  refine reached.invariant ?_ (fun _ _ _ sound _ stepped => sound.step stepped)
  rintro _ rfl
  refine ⟨fun b i _ => ⟨fun pin => ?_, fun flush => ?_⟩, fun _ => trivial⟩
  · simp [State.empty, pinned] at pin
  · simp [State.empty, flushing] at flush

/-- When nothing is left to be flushed, no slot is pinned. -/
theorem no_pin_leak (reached : (machine num_buckets).Reachable state)
    (quiescent : state.Quiescent) {b i : Nat} (low : i < kSlotsPerBucket) :
    get_state (state.metas b).state i = SlotState.kUnpinned.bits :=
  (Sound.reached reached).quiescent quiescent low

/-- Two clients put two keys of one fingerprint. Two flushers drain their
entries, which name the same slot, and unpin it at the same time. -/
def shared_slot : List Action :=
  let put (client offset steps : Nat) : List Action :=
    .upsert_pinned client 1 offset :: List.replicate steps (.client client)
  let flush (id : Nat) : Action := .flusher id false
  put 0 5 22 ++ put 1 6 6 ++
    [.drain 0 ⟨1, ⟨0, 0, true⟩⟩, .drain 1 ⟨1, ⟨0, 0, true⟩⟩, .apply 0, .apply 1,
      flush 0, flush 1, flush 0, flush 1, flush 0, flush 1, flush 1, flush 0, flush 0, flush 0]

theorem no_pin_leak_shared_slot :
    ∃ state, (machine 1).run State.empty shared_slot = some state ∧
      state.slots 0 0 = pack 1 6 ∧ get_state (state.metas 0).state 0 = SlotState.kUnpinned.bits := by
  obtain ⟨state, ran⟩ :=
    Option.isSome_iff_exists.mp (show ((machine 1).run State.empty shared_slot).isSome = true from rfl)
  have slot : ((machine 1).run State.empty shared_slot).map (·.slots 0 0) = some (pack 1 6) := rfl
  have buffer : ((machine 1).run State.empty shared_slot).map (·.buffer) = some [] := rfl
  have flushers : ∀ id, ((machine 1).run State.empty shared_slot).map (·.flushers id) = some .idle
    | 0 | 1 | _ + 2 => rfl
  have clients : ∀ id, ((machine 1).run State.empty shared_slot).map (·.clients id) = some .idle
    | 0 | 1 | _ + 2 => rfl
  simp only [ran, Option.map_some, Option.some.injEq] at slot buffer flushers clients
  have quiescent : state.Quiescent := by
    refine ⟨buffer, flushers, fun id pinning => ?_⟩
    rw [clients id] at pinning
    exact pinning
  have reached : (machine 1).Reachable state := .run (.start rfl) ran
  exact ⟨state, ran, slot, no_pin_leak reached quiescent (by decide)⟩

end Hiom.HotTier
