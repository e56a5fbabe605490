import Hiom.Hot.Cache

/-!
HotTier under any number of threads, each access to a slot, to a metadata word
or to a counter being a step. An insertion looks at the slots one by one and
claims an empty one; what the bucket has got of its fingerprint in the meantime
it does not see.
-/

namespace Hiom.HotTier.Race

structure Load where
  time : Nat
  bucket : Nat
  word : Nat
  stored : Nat

/-- The tier beside its history: when the word of each slot was stored, and what
has been loaded. -/
structure Tier where
  hot : Hot
  clock : Nat
  stored : Nat → Nat → Nat
  loads : List Load

def Tier.empty : Tier := ⟨Hot.empty, 0, fun _ _ => 0, []⟩

def Tier.note (tier : Tier) : Access → Tier
  | .load_slot bucket i =>
      { tier with
        loads := ⟨tier.clock, bucket, tier.hot.slots bucket i, tier.stored bucket i⟩ :: tier.loads }
  | .cas_slot bucket i expected _ =>
      if tier.hot.slots bucket i = expected then
        { tier with
          stored := Function.update tier.stored bucket
            (Function.update (tier.stored bucket) i tier.clock) }
      else tier
  | _ => tier

def tierSem : Prog.Semantics Access.Reply Tier := fun access tier =>
  ((hotSem access tier.hot).1,
    { tier.note access with
      hot := (hotSem access tier.hot).2
      clock := tier.clock + 1 })

/-! ### Calls -/

inductive Call where
  | upsert (fingerprint offset : Nat)
  | upsert_pinned (fingerprint offset : Nat)
  | lookup (fingerprint : Nat)
  | remove (fingerprint rounds : Nat)
  | unpin (ref : SlotRef)
  | cas_slot_state (rounds : Nat) (ref : SlotRef) (old new : SlotState)
  deriving DecidableEq

inductive Answer where
  | replaced (offset : Nat)
  | pinned (ref : SlotRef)
  | found (offset : Option Nat)
  | removed (present : Option Bool)
  | moved (done : Option Bool)
  | done
  deriving DecidableEq

def Call.Proper : Call → Prop
  | .upsert fp off | .upsert_pinned fp off => Fingerprint fp ∧ off < 2 ^ 32
  | .lookup fp | .remove fp _ => Fingerprint fp
  | .unpin _ | .cas_slot_state .. => True

instance (call : Call) : Decidable call.Proper :=
  match call with
  | .upsert fp off | .upsert_pinned fp off =>
      inferInstanceAs (Decidable (Fingerprint fp ∧ off < 2 ^ 32))
  | .lookup fp | .remove fp _ => inferInstanceAs (Decidable (Fingerprint fp))
  | .unpin _ | .cas_slot_state .. => inferInstanceAs (Decidable True)

def Call.code (num_buckets : Nat) : Call → HotCode Answer
  | .upsert fp off => do
      let old ← HotTier.upsert num_buckets fp off
      .ret (.replaced old)
  | .upsert_pinned fp off => do
      let ref ← HotTier.upsert_pinned num_buckets fp off
      .ret (.pinned ref)
  | .lookup fp => do
      let offset ← HotTier.lookup num_buckets fp
      .ret (.found offset)
  | .remove fp rounds => do
      let present ← HotTier.remove num_buckets fp rounds
      .ret (.removed present)
  | .unpin ref => do
      HotTier.unpin ref
      .ret .done
  | .cas_slot_state rounds ref old new => do
      let done ← HotTier.cas_slot_state rounds ref old new
      .ret (.moved done)

inductive Thread where
  | idle
  | busy (call : Call) (began : Nat) (code : HotCode Answer)

structure Return where
  call : Call
  began : Nat
  ended : Nat
  answer : Answer
  deriving DecidableEq

structure State where
  tier : Tier
  threads : Nat → Thread
  returns : List Return

def State.empty : State := ⟨Tier.empty, fun _ => .idle, []⟩

inductive Action where
  | begin (id : Nat) (call : Call)
  | access (id : Nat)
  | finish (id : Nat)

def State.step (num_buckets : Nat) (state : State) : Action → Option State
  | .begin id call =>
      match state.threads id with
      | .idle =>
          if call.Proper then
            some ⟨{ state.tier with clock := state.tier.clock + 1 },
              Function.update state.threads id
                (.busy call state.tier.clock (call.code num_buckets)), state.returns⟩
          else none
      | .busy .. => none
  | .access id =>
      match state.threads id with
      | .idle => none
      | .busy call began code =>
          match code.advance tierSem state.tier with
          | some (rest, tier) =>
              some ⟨tier, Function.update state.threads id (.busy call began rest), state.returns⟩
          | none => none
  | .finish id =>
      match state.threads id with
      | .busy call began (.ret answer) =>
          some ⟨{ state.tier with clock := state.tier.clock + 1 },
            Function.update state.threads id .idle,
            ⟨call, began, state.tier.clock, answer⟩ :: state.returns⟩
      | _ => none

def machine (num_buckets : Nat) : Machine State Action where
  initial := fun state => state = .empty
  step := State.step num_buckets

/-! ### Entries of a fingerprint -/

def Unique (tier : Tier) : Prop :=
  ∀ b, ∀ i < kSlotsPerBucket, ∀ j < kSlotsPerBucket,
    unpack_fp (tier.hot.slots b i) ≠ 0 →
      unpack_fp (tier.hot.slots b i) = unpack_fp (tier.hot.slots b j) → i = j

def Renewed (bucket fp since : Nat) (tier : Tier) : Prop :=
  since ≤ tier.clock ∧ ∀ i < kSlotsPerBucket, unpack_fp (tier.hot.slots bucket i) = fp →
    since ≤ tier.stored bucket i

/-- If the access is the compare-and-swap by which an insertion that began at a
time claims an empty slot, nobody has stored its fingerprint in the bucket since. -/
def Undisturbed (tier : Tier) (began : Nat) : Access → Prop
  | .cas_slot bucket i expected desired =>
      expected = 0 → tier.hot.slots bucket i = 0 →
        ∀ j < kSlotsPerBucket, unpack_fp (tier.hot.slots bucket j) = unpack_fp desired →
          tier.stored bucket j < began
  | _ => True

instance (tier : Tier) (began : Nat) (access : Access) : Decidable (Undisturbed tier began access) :=
  match access with
  | .cas_slot bucket i expected desired => inferInstanceAs (Decidable
      (expected = 0 → tier.hot.slots bucket i = 0 →
        ∀ j < kSlotsPerBucket, unpack_fp (tier.hot.slots bucket j) = unpack_fp desired →
          tier.stored bucket j < began))
  | .load_slot .. | .load_visited .. | .write_visited .. | .load_hand .. | .store_hand ..
  | .load_state .. | .cas_word .. | .or_state .. | .and_state .. | .add_size | .sub_size
  | .add_evictions | .add_pin_failures => inferInstanceAs (Decidable True)

def Meets (state : State) : Action → Prop
  | .access id =>
      match state.threads id with
      | .busy _ began (.op access _) => Undisturbed state.tier began access
      | _ => True
  | _ => True

/-! ### What a thread may find changed -/

structure Later (tier later : Tier) : Prop where
  clock : tier.clock ≤ later.clock
  slots : ∀ b i, later.hot.slots b i = tier.hot.slots b i ∧ later.stored b i = tier.stored b i ∨
    tier.clock ≤ later.stored b i
  loads : ∀ load ∈ tier.loads, load ∈ later.loads

variable {num_buckets bucket fp since : Nat} {tier later : Tier}

theorem Later.refl (tier : Tier) : Later tier tier :=
  ⟨Nat.le_refl _, fun _ _ => .inl ⟨rfl, rfl⟩, fun _ member => member⟩

theorem Later.trans (a b c : Tier) (first : Later a b) (second : Later b c) : Later a c where
  clock := Nat.le_trans first.clock second.clock
  slots := by
    intro bucket i
    rcases second.slots bucket i with ⟨word, time⟩ | new
    · rw [word, time]
      exact first.slots bucket i
    · exact .inr (Nat.le_trans first.clock new)
  loads := fun load member => second.loads load (first.loads load member)

/-- How the slots change: by a compare-and-swap that succeeds. -/
theorem slots_tierSem (access : Access) (b i : Nat) :
    (tierSem access tier).2.hot.slots b i =
        match access with
        | .cas_slot bucket slot expected desired =>
            if tier.hot.slots bucket slot = expected ∧ b = bucket ∧ i = slot then desired
            else tier.hot.slots b i
        | _ => tier.hot.slots b i := by
  cases access with
  | cas_slot bucket slot expected desired =>
      simp only [tierSem, hotSem]
      by_cases found : tier.hot.slots bucket slot = expected
      · simp only [found, if_true, true_and]
        exact slots_set_slot slot desired b i
      · simp only [found, if_false, false_and]
  | cas_word bucket cur desired =>
      simp only [tierSem, hotSem]
      split
      · rfl
      · rfl
  | _ => rfl

theorem stored_tierSem (access : Access) (b i : Nat) :
    (tierSem access tier).2.stored b i =
        match access with
        | .cas_slot bucket slot expected _ =>
            if tier.hot.slots bucket slot = expected ∧ b = bucket ∧ i = slot then tier.clock
            else tier.stored b i
        | _ => tier.stored b i := by
  cases access with
  | cas_slot bucket slot expected desired =>
      simp only [tierSem, Tier.note]
      by_cases found : tier.hot.slots bucket slot = expected
      · simp only [found, if_true, true_and]
        by_cases same : b = bucket
        · subst same
          by_cases here : i = slot
          · subst here
            simp
          · simp [here]
        · simp [same]
      · simp only [found, if_false, false_and]
  | _ => rfl

theorem clock_tierSem (access : Access) : (tierSem access tier).2.clock = tier.clock + 1 := rfl

theorem later_tierSem (access : Access) : Later tier (tierSem access tier).2 where
  clock := Nat.le_succ _
  slots := by
    intro b i
    rw [slots_tierSem, stored_tierSem]
    cases access with
    | cas_slot bucket slot expected desired =>
        by_cases found : tier.hot.slots bucket slot = expected ∧ b = bucket ∧ i = slot
        · right
          simp only [found, and_self, if_true]
          exact Nat.le_refl _
        · left
          simp only [found, if_false, and_self]
    | _ => exact .inl ⟨rfl, rfl⟩
  loads := by
    intro load member
    cases access with
    | load_slot bucket i => exact List.mem_cons_of_mem _ member
    | cas_slot bucket slot expected desired =>
        simp only [tierSem, Tier.note]
        split
        · exact member
        · exact member
    | _ => exact member

/-- What a load adds. -/
theorem loads_tierSem (access : Access) :
    ∀ load ∈ (tierSem access tier).2.loads, load ∈ tier.loads ∨
      load.time = tier.clock ∧ ∃ i, access = .load_slot load.bucket i ∧
        load.word = tier.hot.slots load.bucket i ∧ load.stored = tier.stored load.bucket i := by
  intro load member
  cases access with
  | load_slot bucket i =>
      rcases List.mem_cons.mp member with rfl | old
      · exact .inr ⟨rfl, i, rfl, rfl, rfl⟩
      · exact .inl old
  | cas_slot bucket slot expected desired =>
      left
      simp only [tierSem, Tier.note] at member
      split at member
      · exact member
      · exact member
  | _ => exact .inl member

theorem later_tick (tier : Tier) : Later tier { tier with clock := tier.clock + 1 } :=
  ⟨Nat.le_succ _, fun _ _ => .inl ⟨rfl, rfl⟩, fun _ member => member⟩

theorem renewed_stable : Prog.Stable Later (Renewed bucket fp since) := by
  rintro tier later moved ⟨before, renewed⟩
  refine ⟨Nat.le_trans before moved.clock, ?_⟩
  intro i inside same
  rcases moved.slots bucket i with ⟨word, time⟩ | new
  · rw [word] at same
    rw [time]
    exact renewed i inside same
  · exact Nat.le_trans before new

/-! ### The calls under interference -/

def Allowed (began : Nat) (tier : Tier) : Access → Prop
  | .load_slot _ i => i < kSlotsPerBucket
  | .cas_slot bucket _ expected desired =>
      desired = 0 ∨ unpack_fp expected = unpack_fp desired ∨
        expected = 0 ∧ Renewed bucket (unpack_fp desired) began tier
  | _ => True

def Storeless : Access → Prop
  | .load_slot _ i => i < kSlotsPerBucket
  | .cas_slot _ _ _ desired => desired = 0
  | _ => True

theorem Storeless.allowed {access : Access} (storeless : Storeless access) (began : Nat)
    (tier : Tier) : Allowed began tier access := by
  cases access with
  | load_slot bucket i => exact storeless
  | cas_slot bucket i expected desired => exact .inl storeless
  | _ => trivial

def Scanned (bucket fp since upto : Nat) (tier : Tier) : Prop :=
  since ≤ tier.clock ∧ ∀ i < upto, unpack_fp (tier.hot.slots bucket i) = fp →
    since ≤ tier.stored bucket i

def Matched (bucket fp since i v : Nat) (tier : Tier) : Prop :=
  since ≤ tier.clock ∧ ∀ j < kSlotsPerBucket, unpack_fp (tier.hot.slots bucket j) = fp →
    since ≤ tier.stored bucket j ∨ j = i ∧ tier.hot.slots bucket j = v

def Loaded (bucket v since : Nat) (tier : Tier) : Prop :=
  ∃ load ∈ tier.loads, since ≤ load.time ∧ load.bucket = bucket ∧ load.word = v

theorem scanned_stable {upto : Nat} : Prog.Stable Later (Scanned bucket fp since upto) := by
  rintro tier later moved ⟨before, scanned⟩
  refine ⟨Nat.le_trans before moved.clock, ?_⟩
  intro i inside same
  rcases moved.slots bucket i with ⟨word, time⟩ | new
  · rw [word] at same
    rw [time]
    exact scanned i inside same
  · exact Nat.le_trans before new

theorem matched_stable {i v : Nat} : Prog.Stable Later (Matched bucket fp since i v) := by
  rintro tier later moved ⟨before, others⟩
  refine ⟨Nat.le_trans before moved.clock, ?_⟩
  intro j inside same
  rcases moved.slots bucket j with ⟨word, time⟩ | new
  · rw [word] at same ⊢
    rw [time]
    exact others j inside same
  · exact .inl (Nat.le_trans before new)

theorem loaded_stable {v : Nat} : Prog.Stable Later (Loaded bucket v since) := by
  rintro tier later moved ⟨load, member, rest⟩
  exact ⟨load, moved.loads load member, rest⟩

/-- A load that does not find the fingerprint. -/
theorem Scanned.load {i : Nat} (scanned : Scanned bucket fp since i tier)
    (other : unpack_fp (tier.hot.slots bucket i) ≠ fp) :
    Scanned bucket fp since (i + 1) (tierSem (.load_slot bucket i) tier).2 := by
  refine ⟨Nat.le_succ_of_le scanned.1, ?_⟩
  intro j inside same
  by_cases here : j = i
  · rw [here] at same
    exact absurd same other
  · exact scanned.2 j (by omega) same

/-- A load that finds it. -/
theorem Matched.load {i : Nat} (unique : Unique tier) (before : since ≤ tier.clock) (proper : fp ≠ 0)
    (inside : i < kSlotsPerBucket) (same : unpack_fp (tier.hot.slots bucket i) = fp) :
    Matched bucket fp since i (tier.hot.slots bucket i)
      (tierSem (.load_slot bucket i) tier).2 := by
  refine ⟨Nat.le_succ_of_le before, ?_⟩
  intro j below same_j
  have together : j = i := by
    apply unique bucket j below i inside
    · intro nothing
      exact proper (same_j.symm.trans nothing)
    · exact same_j.trans same.symm
  rw [together]
  exact .inr ⟨rfl, rfl⟩

theorem Loaded.load {i : Nat} (before : since ≤ tier.clock) :
    Loaded bucket (tier.hot.slots bucket i) since (tierSem (.load_slot bucket i) tier).2 :=
  ⟨_, List.mem_cons_self, before, rfl, rfl⟩

/-- The matched slot is swapped. -/
theorem Matched.swap {i v desired : Nat} (held : Matched bucket fp since i v tier)
    (found : tier.hot.slots bucket i = v) :
    Renewed bucket fp since (tierSem (.cas_slot bucket i v desired) tier).2 := by
  refine ⟨Nat.le_succ_of_le held.1, ?_⟩
  intro j inside same
  rw [slots_tierSem] at same
  rw [stored_tierSem]
  by_cases here : j = i
  · subst here
    simp only [found, and_self, if_true]
    exact held.1
  · simp only [here, and_false, if_false] at same ⊢
    rcases held.2 j inside same with since_then | ⟨is_i, _⟩
    · exact since_then
    · exact absurd is_i here

/-- Somebody else has changed the matched slot. -/
theorem Matched.lost {i v desired : Nat} (held : Matched bucket fp since i v tier)
    (changed : tier.hot.slots bucket i ≠ v) :
    Renewed bucket fp since (tierSem (.cas_slot bucket i v desired) tier).2 := by
  refine ⟨Nat.le_succ_of_le held.1, ?_⟩
  intro j inside same
  rw [slots_tierSem] at same
  rw [stored_tierSem]
  simp only [changed, false_and, if_false] at same ⊢
  rcases held.2 j inside same with since_then | ⟨is_i, is_v⟩
  · exact since_then
  · rw [is_i] at is_v
    exact absurd is_v changed

theorem Scanned.renewed (scanned : Scanned bucket fp since kSlotsPerBucket tier) :
    Renewed bucket fp since tier := scanned

def FindPost (bucket fp since : Nat) (answer : Option (Nat × Nat)) (tier : Tier) : Prop :=
  match answer with
  | some (i, v) => Matched bucket fp since i v tier ∧ Loaded bucket v since tier ∧
      unpack_fp v = fp
  | none => Renewed bucket fp since tier

theorem find_succ (left i : Nat) : find bucket fp (left + 1) i =
    .op (.load_slot bucket i) (fun v =>
      if unpack_fp v = fp then .ret (some (i, v)) else find bucket fp left (i + 1)) := rfl

theorem find_assured (proper : fp ≠ 0) (left i : Nat) (total : i + left = kSlotsPerBucket)
    (scanned : Scanned bucket fp since i tier) :
    (find bucket fp left i).Assured tierSem Unique Later (Allowed since)
      (FindPost bucket fp since) tier := by
  induction left generalizing i tier with
  | zero =>
      have done : i = kSlotsPerBucket := by omega
      subst done
      exact Prog.assured_ret scanned_stable scanned (fun _ holds => holds)
  | succ left ih =>
      rw [find_succ]
      apply Prog.assured_op scanned_stable scanned
      intro now unique so_far
      refine ⟨show i < kSlotsPerBucket by omega, ?_⟩
      have answered : (tierSem (.load_slot bucket i) now).1 = now.hot.slots bucket i := rfl
      rw [answered]
      by_cases same : unpack_fp (now.hot.slots bucket i) = fp
      · rw [if_pos same]
        have stable : Prog.Stable Later (fun tier =>
            Matched bucket fp since i (now.hot.slots bucket i) tier ∧
              Loaded bucket (now.hot.slots bucket i) since tier) := by
          rintro a b moved ⟨matched, loaded⟩
          exact ⟨matched_stable a b moved matched, loaded_stable a b moved loaded⟩
        exact Prog.assured_ret stable
          ⟨Matched.load unique so_far.1 proper (by omega) same, Loaded.load so_far.1⟩
          (fun _ holds => ⟨holds.1, holds.2, same⟩)
      · rw [if_neg same]
        exact ih (i + 1) (by omega) (so_far.load same)

def ProbePost (bucket fp since : Nat) (answer : Probed) (tier : Tier) : Prop :=
  match answer with
  | .matched i v => Matched bucket fp since i v tier ∧ unpack_fp v = fp
  | .missing _ => Renewed bucket fp since tier

theorem probe_succ (left i : Nat) (first_empty : Option Nat) :
    probe bucket fp (left + 1) i first_empty = .op (.load_slot bucket i) (fun v =>
      if unpack_fp v = fp then .ret (.matched i v)
      else if unpack_fp v = 0 ∧ first_empty = none then probe bucket fp left (i + 1) (some i)
      else probe bucket fp left (i + 1) first_empty) := rfl

theorem probe_assured (proper : fp ≠ 0) (left i : Nat) (first_empty : Option Nat)
    (total : i + left = kSlotsPerBucket) (scanned : Scanned bucket fp since i tier) :
    (probe bucket fp left i first_empty).Assured tierSem Unique Later (Allowed since)
      (ProbePost bucket fp since) tier := by
  induction left generalizing i tier first_empty with
  | zero =>
      have done : i = kSlotsPerBucket := by omega
      subst done
      exact Prog.assured_ret scanned_stable scanned (fun _ holds => holds)
  | succ left ih =>
      rw [probe_succ]
      apply Prog.assured_op scanned_stable scanned
      intro now unique so_far
      refine ⟨show i < kSlotsPerBucket by omega, ?_⟩
      have answered : (tierSem (.load_slot bucket i) now).1 = now.hot.slots bucket i := rfl
      rw [answered]
      by_cases same : unpack_fp (now.hot.slots bucket i) = fp
      · rw [if_pos same]
        exact Prog.assured_ret matched_stable
          (Matched.load unique so_far.1 proper (by omega) same) (fun _ holds => ⟨holds, same⟩)
      · rw [if_neg same]
        have goes_on := fun target => @ih (tierSem (.load_slot bucket i) now).2 (i + 1) target
          (by omega) (so_far.load same)
        split
        · exact goes_on _
        · exact goes_on _

/-! ### Accesses that store nothing -/

section Storeless

theorem set_visited_storeless (i : Nat) : (set_visited bucket i).Only Storeless := by
  unfold set_visited
  apply Prog.Only.bind
  · exact ⟨trivial, fun _ => trivial⟩
  · exact fun cur => Prog.Only.ite trivial ⟨trivial, fun _ => trivial⟩

theorem clear_visited_storeless (i : Nat) : (clear_visited bucket i).Only Storeless := by
  unfold clear_visited
  apply Prog.Only.bind
  · exact ⟨trivial, fun _ => trivial⟩
  · exact fun cur => Prog.Only.ite ⟨trivial, fun _ => trivial⟩ trivial

theorem force_pinned_storeless (i : Nat) : (force_pinned bucket i).Only Storeless :=
  ⟨trivial, fun _ => ⟨trivial, fun _ => trivial⟩⟩

theorem unpin_storeless (ref : SlotRef) : (unpin ref).Only Storeless :=
  Prog.Only.ite ⟨trivial, fun _ => trivial⟩ trivial

theorem cas_state_from_storeless (i rounds : Nat) (old new : SlotState) (cur : BitVec 32) :
    (cas_state_from bucket i old new rounds cur).Only Storeless := by
  induction rounds generalizing cur with
  | zero => trivial
  | succ rounds ih =>
      unfold cas_state_from
      apply Prog.Only.ite
      · apply Prog.Only.bind
        · exact ⟨trivial, fun _ => trivial⟩
        · exact fun found => Prog.Only.ite trivial (ih found)
      · trivial

theorem cas_slot_state_storeless (rounds : Nat) (ref : SlotRef) (old new : SlotState) :
    (cas_slot_state rounds ref old new).Only Storeless := by
  unfold cas_slot_state cas_state
  apply Prog.Only.ite
  · apply Prog.Only.bind
    · exact ⟨trivial, fun _ => trivial⟩
    · exact fun cur => cas_state_from_storeless _ _ _ _ cur
  · trivial

theorem sieve_from_storeless (hand left k : Nat) :
    (sieve_from bucket hand left k).Only Storeless := by
  induction left generalizing k with
  | zero => trivial
  | succ left ih =>
      unfold sieve_from
      apply Prog.Only.bind
      · exact ⟨trivial, fun _ => trivial⟩
      · intro st
        apply Prog.Only.ite
        · apply Prog.Only.bind
          · exact ⟨trivial, fun _ => trivial⟩
          · intro vis
            apply Prog.Only.ite
            · exact ⟨trivial, fun _ => ih (k + 1)⟩
            · apply Prog.Only.bind
              · exact ⟨Nat.mod_lt _ (by decide), fun _ => trivial⟩
              · intro expected
                apply Prog.Only.ite
                · exact ⟨trivial, fun _ => trivial⟩
                · apply Prog.Only.bind
                  · exact ⟨rfl, fun _ => trivial⟩
                  · intro cleared
                    apply Prog.Only.ite
                    · exact ⟨trivial, fun _ => ⟨trivial, fun _ => ⟨trivial, fun _ => trivial⟩⟩⟩
                    · exact ih (k + 1)
        · exact ih (k + 1)

theorem sieve_evict_storeless : (sieve_evict bucket).Only Storeless :=
  ⟨trivial, fun hand => sieve_from_storeless hand _ 0⟩

/-- Such accesses keep what is stable. -/
theorem storeless_assured {α : Type} {code : HotCode α} {assertion : Tier → Prop}
    (storeless : code.Only Storeless) (stable : Prog.Stable Later assertion)
    (now : assertion tier) :
    code.Assured tierSem Unique Later (Allowed since) (fun _ => assertion) tier :=
  storeless.assured (fun tier _ kept => kept.allowed since tier)
    (fun _ access _ => later_tierSem access) stable now

end Storeless

/-! ### Insertions -/

theorem claim_assured {offset i retries : Nat} (short : offset < 2 ^ 32)
    (renewed : Renewed bucket fp since tier)
    (again : ∀ tier, Renewed bucket fp since tier →
      (place bucket fp offset retries).Assured tierSem Unique Later (Allowed since)
        (fun _ => Renewed bucket fp since) tier) :
    (do
      let claimed ← cas_slot bucket i 0 (pack fp offset)
      if claimed then
        add_size
        clear_visited bucket i
        .ret (.inserted i)
      else place bucket fp offset retries : HotCode Placed).Assured tierSem Unique Later
        (Allowed since) (fun _ => Renewed bucket fp since) tier := by
  simp only [cas_slot, Prog.op_bind, Prog.ret_bind]
  apply Prog.assured_op renewed_stable renewed
  intro now _ still
  have word : unpack_fp (pack fp offset) = fp := unpack_fp_pack short
  have permitted : Allowed since now (.cas_slot bucket i 0 (pack fp offset)) := by
    right
    right
    rw [word]
    exact ⟨rfl, still⟩
  have kept : Renewed bucket fp since (tierSem (.cas_slot bucket i 0 (pack fp offset)) now).2 :=
    renewed_stable _ _ (later_tierSem _) still
  refine ⟨permitted, ?_⟩
  generalize (tierSem (.cas_slot bucket i 0 (pack fp offset)) now).1 = claimed
  cases claimed with
  | true =>
      have quiet : (do
          add_size
          clear_visited bucket i
          .ret (.inserted i) : HotCode Placed).Only Storeless :=
        ⟨trivial, fun _ => (clear_visited_storeless i).bind (fun _ => trivial)⟩
      exact storeless_assured quiet renewed_stable kept
  | false => exact again _ kept

theorem place_assured {offset : Nat} (proper : fp ≠ 0) (short : offset < 2 ^ 32) (retries : Nat)
    (before : since ≤ tier.clock) (ready : retries = 0 → Renewed bucket fp since tier) :
    (place bucket fp offset retries).Assured tierSem Unique Later (Allowed since)
      (fun _ => Renewed bucket fp since) tier := by
  induction retries generalizing tier with
  | zero => exact Prog.assured_ret renewed_stable (ready rfl) (fun _ holds => holds)
  | succ retries ih =>
      have again : ∀ tier, Renewed bucket fp since tier →
          (place bucket fp offset retries).Assured tierSem Unique Later (Allowed since)
            (fun _ => Renewed bucket fp since) tier :=
        fun tier renewed => ih renewed.1 (fun _ => renewed)
      have start : Scanned bucket fp since 0 tier :=
        ⟨before, fun i inside => absurd inside (Nat.not_lt_zero i)⟩
      rw [place]
      apply Prog.Assured.bind Later.refl
      apply (probe_assured proper kSlotsPerBucket 0 none (Nat.zero_add _) start).conseq
      intro answer seen found
      cases answer with
      | matched i v =>
          obtain ⟨matched, same⟩ := found
          simp only [cas_slot, Prog.op_bind, Prog.ret_bind]
          apply Prog.assured_op matched_stable matched
          intro now _ held
          refine ⟨.inr (.inl (same.trans (unpack_fp_pack short).symm)), ?_⟩
          by_cases unchanged : now.hot.slots bucket i = v
          · have answered : (tierSem (.cas_slot bucket i v (pack fp offset)) now).1 = true := by
              simp [tierSem, hotSem, unchanged]
            have quiet : (do
                set_visited bucket i
                .ret (.replaced i v) : HotCode Placed).Only Storeless :=
              (set_visited_storeless i).bind (fun _ => trivial)
            rw [answered, if_pos rfl]
            exact storeless_assured quiet renewed_stable (held.swap unchanged)
          · have answered : (tierSem (.cas_slot bucket i v (pack fp offset)) now).1 = false := by
              simp [tierSem, hotSem, unchanged]
            rw [answered, if_neg Bool.false_ne_true]
            exact again _ (held.lost unchanged)
      | missing first_empty =>
          cases first_empty with
          | some i => exact claim_assured short found again
          | none =>
              apply Prog.Assured.bind Later.refl
              apply (storeless_assured sieve_evict_storeless renewed_stable found).conseq
              intro target_idx swept renewed
              cases target_idx with
              | none => exact Prog.assured_ret renewed_stable renewed (fun _ holds => holds)
              | some i => exact claim_assured short renewed again

/-! ### Calls under interference -/

theorem find_start (proper : fp ≠ 0) (before : since ≤ tier.clock) :
    (find bucket fp kSlotsPerBucket 0).Assured tierSem Unique Later (Allowed since)
      (FindPost bucket fp since) tier :=
  find_assured proper kSlotsPerBucket 0 (Nat.zero_add _)
    ⟨before, fun i inside => absurd inside (Nat.not_lt_zero i)⟩

theorem remove_assured (proper : fp ≠ 0) (rounds : Nat) (before : since ≤ tier.clock) :
    (remove num_buckets fp rounds).Assured tierSem Unique Later (Allowed since)
      (fun present last => present ≠ none → Renewed (bucket_index num_buckets fp) fp since last)
      tier := by
  induction rounds generalizing tier with
  | zero => exact fun _ _ _ answered => absurd rfl answered
  | succ rounds ih =>
      rw [remove]
      apply Prog.Assured.bind Later.refl
      apply (find_start proper before).conseq
      intro answer seen found
      cases answer with
      | none => exact Prog.assured_ret renewed_stable found (fun _ holds _ => holds)
      | some slot =>
          obtain ⟨i, v⟩ := slot
          obtain ⟨matched, _, _⟩ := found
          simp only [cas_slot, Prog.op_bind, Prog.ret_bind]
          apply Prog.assured_op matched_stable matched
          intro now _ held
          refine ⟨.inl rfl, ?_⟩
          by_cases unchanged : now.hot.slots (bucket_index num_buckets fp) i = v
          · have answered :
                (tierSem (.cas_slot (bucket_index num_buckets fp) i v 0) now).1 = true := by
              simp [tierSem, hotSem, unchanged]
            have quiet : (do
                sub_size
                clear_visited (bucket_index num_buckets fp) i
                .ret (some true) : HotCode (Option Bool)).Only Storeless :=
              ⟨trivial, fun _ => (clear_visited_storeless i).bind (fun _ => trivial)⟩
            rw [answered, if_pos rfl]
            apply (storeless_assured quiet renewed_stable (held.swap unchanged)).conseq
            exact fun _ _ renewed _ => renewed
          · have answered :
                (tierSem (.cas_slot (bucket_index num_buckets fp) i v 0) now).1 = false := by
              simp [tierSem, hotSem, unchanged]
            rw [answered, if_neg Bool.false_ne_true]
            exact ih (Nat.le_succ_of_le held.1)

def LookupPost (bucket fp since : Nat) (answer : Option Nat) (tier : Tier) : Prop :=
  ∀ off, answer = some off → ∃ v, Loaded bucket v since tier ∧ unpack_fp v = fp ∧
    unpack_off v = off

theorem lookup_assured (proper : fp ≠ 0) (before : since ≤ tier.clock) :
    (lookup num_buckets fp).Assured tierSem Unique Later (Allowed since)
      (LookupPost (bucket_index num_buckets fp) fp since) tier := by
  rw [lookup]
  apply Prog.Assured.bind Later.refl
  apply (find_start proper before).conseq
  intro answer seen found
  cases answer with
  | none => exact fun _ _ _ off impossible => nomatch impossible
  | some slot =>
      obtain ⟨i, v⟩ := slot
      obtain ⟨_, loaded, same⟩ := found
      apply Prog.Assured.bind Later.refl
      apply (storeless_assured (set_visited_storeless i) loaded_stable loaded).conseq
      intro _ last loaded
      refine Prog.assured_ret loaded_stable loaded ?_
      intro last loaded off answered
      cases answered
      exact ⟨v, loaded, same, rfl⟩

def Post (num_buckets began : Nat) (call : Call) (answer : Answer) (tier : Tier) : Prop :=
  match call, answer with
  | .upsert fp _, _ | .upsert_pinned fp _, _ | .remove fp _, .removed (some _) =>
      Renewed (bucket_index num_buckets fp) fp began tier
  | .lookup fp, .found offset => LookupPost (bucket_index num_buckets fp) fp began offset tier
  | _, _ => True

theorem call_assured {call : Call} (proper : call.Proper) :
    (call.code num_buckets).Assured tierSem Unique Later (Allowed tier.clock)
      (Post num_buckets tier.clock call) tier := by
  have anything : Prog.Stable Later (fun _ => True) := fun _ _ _ _ => trivial
  cases call with
  | upsert fp off =>
      obtain ⟨fingerprint, short⟩ := proper
      apply Prog.Assured.bind Later.refl
      apply Prog.Assured.bind Later.refl
      apply (place_assured fingerprint.1 short kMaxUpsertRetries (Nat.le_refl _) nofun).conseq
      intro placed last renewed
      cases placed with
      | _ => exact Prog.assured_ret renewed_stable renewed
              (fun _ holds => Prog.assured_ret renewed_stable holds (fun _ holds => holds))
  | upsert_pinned fp off =>
      obtain ⟨fingerprint, short⟩ := proper
      apply Prog.Assured.bind Later.refl
      apply Prog.Assured.bind Later.refl
      apply (place_assured fingerprint.1 short kMaxUpsertRetries (Nat.le_refl _) nofun).conseq
      intro placed last renewed
      have quiet : ∀ i, (do
          force_pinned (bucket_index num_buckets fp) i
          .ret ⟨bucket_index num_buckets fp, i, true⟩ : HotCode SlotRef).Only Storeless :=
        fun i => (force_pinned_storeless i).bind (fun _ => trivial)
      have failed : (do
          add_pin_failures
          .ret .invalid : HotCode SlotRef).Only Storeless := ⟨trivial, fun _ => trivial⟩
      cases placed with
      | replaced i v =>
          apply (storeless_assured (quiet i) renewed_stable renewed).conseq
          exact fun _ _ renewed => Prog.assured_ret renewed_stable renewed (fun _ holds => holds)
      | inserted i =>
          apply (storeless_assured (quiet i) renewed_stable renewed).conseq
          exact fun _ _ renewed => Prog.assured_ret renewed_stable renewed (fun _ holds => holds)
      | failed =>
          apply (storeless_assured failed renewed_stable renewed).conseq
          exact fun _ _ renewed => Prog.assured_ret renewed_stable renewed (fun _ holds => holds)
  | lookup fp =>
      apply Prog.Assured.bind Later.refl
      apply (lookup_assured proper.1 (Nat.le_refl _)).conseq
      intro answer last found later _ moved off answered
      obtain ⟨v, loaded, rest⟩ := found off answered
      exact ⟨v, loaded_stable _ _ moved loaded, rest⟩
  | remove fp rounds =>
      apply Prog.Assured.bind Later.refl
      apply (remove_assured proper.1 rounds (Nat.le_refl _)).conseq
      intro present last renewed
      cases present with
      | none => exact Prog.assured_ret anything trivial (fun _ _ => trivial)
      | some found =>
          exact Prog.assured_ret renewed_stable (renewed (Option.some_ne_none found))
            (fun _ holds => holds)
  | unpin ref =>
      apply Prog.Assured.bind Later.refl
      apply (storeless_assured (unpin_storeless ref) anything trivial).conseq
      exact fun _ _ _ => Prog.assured_ret anything trivial (fun _ _ => trivial)
  | cas_slot_state rounds ref old new =>
      apply Prog.Assured.bind Later.refl
      apply (storeless_assured (cas_slot_state_storeless rounds ref old new) anything
        trivial).conseq
      exact fun _ _ _ => Prog.assured_ret anything trivial (fun _ _ => trivial)

/-! ### Runs -/

/-- An access that keeps to what is allowed, and disturbs nobody who claims. -/
theorem unique_tierSem {began : Nat} {access : Access} (unique : Unique tier)
    (allowed : Allowed began tier access) (undisturbed : Undisturbed tier began access) :
    Unique (tierSem access tier).2 := by
  intro b i below_i j below_j present same
  rw [slots_tierSem] at present same
  rw [slots_tierSem] at same
  cases access with
  | cas_slot bucket slot expected desired =>
      by_cases found : tier.hot.slots bucket slot = expected
      · simp only [found, true_and] at present same
        rcases allowed with cleared | replaced | ⟨rfl, renewed⟩
        · subst cleared
          by_cases here_i : b = bucket ∧ i = slot
          · simp only [here_i, and_self, if_true, unpack_fp_zero] at present
            exact absurd rfl present
          · rw [if_neg here_i] at present same
            by_cases here_j : b = bucket ∧ j = slot
            · rw [if_pos here_j] at same
              exact absurd same present
            · rw [if_neg here_j] at same
              exact unique b i below_i j below_j present same
        · have word : ∀ k, unpack_fp (if b = bucket ∧ k = slot then desired
              else tier.hot.slots b k) = unpack_fp (tier.hot.slots b k) := by
            intro k
            by_cases here : b = bucket ∧ k = slot
            · rw [if_pos here, here.1, here.2, found, replaced]
            · rw [if_neg here]
          rw [word] at present same
          rw [word] at same
          exact unique b i below_i j below_j present same
        · have absent : ∀ k < kSlotsPerBucket,
              unpack_fp (tier.hot.slots bucket k) ≠ unpack_fp desired := by
            intro k below same_k
            have before := undisturbed rfl found k below same_k
            have since := renewed.2 k below same_k
            omega
          by_cases here_i : b = bucket ∧ i = slot
          · obtain ⟨rfl, rfl⟩ := here_i
            by_cases here_j : j = i
            · exact here_j.symm
            · simp only [and_self, if_true, here_j, and_false, if_false] at same
              exact absurd same.symm (absent j below_j)
          · rw [if_neg here_i] at present same
            by_cases here_j : b = bucket ∧ j = slot
            · rw [if_pos here_j] at same
              rw [here_j.1] at same
              exact absurd same (absent i below_i)
            · rw [if_neg here_j] at same
              exact unique b i below_i j below_j present same
      · simp only [found, false_and, if_false] at present same
        exact unique b i below_i j below_j present same
  | _ => exact unique b i below_i j below_j present same

/-- The call has stored or removed the fingerprint, or failed to store it. -/
def Return.Settles (ret : Return) (fp : Nat) : Prop :=
  match ret.call, ret.answer with
  | .upsert stored _, _ | .upsert_pinned stored _, _ | .remove stored _, .removed (some _) =>
      stored = fp
  | _, _ => False

variable {state next : State} {ret : Return}

theorem Return.Settles.renewed (settles : ret.Settles fp) {began : Nat}
    (post : Post num_buckets began ret.call ret.answer tier) :
    Renewed (bucket_index num_buckets fp) fp began tier := by
  revert settles post
  unfold Return.Settles Post
  cases ret.call with
  | upsert stored off => exact fun same post => same ▸ post
  | upsert_pinned stored off => exact fun same post => same ▸ post
  | remove stored rounds =>
      cases ret.answer with
      | removed present =>
          cases present with
          | some found => exact fun same post => same ▸ post
          | none => exact fun impossible => impossible.elim
      | _ => exact fun impossible => impossible.elim
  | _ => exact fun impossible => impossible.elim

theorem lookupPost_stable {offset : Option Nat} :
    Prog.Stable Later (LookupPost bucket fp since offset) := by
  intro tier later moved found off answered
  obtain ⟨v, loaded, rest⟩ := found off answered
  exact ⟨v, loaded_stable _ _ moved loaded, rest⟩

theorem post_stable {began : Nat} {call : Call} {answer : Answer} :
    Prog.Stable Later (Post num_buckets began call answer) := by
  intro tier later moved
  unfold Post
  split
  · exact renewed_stable _ _ moved
  · exact renewed_stable _ _ moved
  · exact renewed_stable _ _ moved
  · exact lookupPost_stable _ _ moved
  · exact id

structure Sound (num_buckets : Nat) (state : State) : Prop where
  unique : Unique state.tier
  busy : ∀ id call began code, state.threads id = .busy call began code →
    code.Assured tierSem Unique Later (Allowed began) (Post num_buckets began call) state.tier
  answered : ∀ ret ∈ state.returns, Post num_buckets ret.began ret.call ret.answer state.tier
  times : ∀ load ∈ state.tier.loads, load.time < state.tier.clock
  loads : ∀ load ∈ state.tier.loads, ∀ ret ∈ state.returns, ∀ fp, ret.Settles fp →
    ret.ended ≤ load.time → load.bucket = bucket_index num_buckets fp →
      unpack_fp load.word = fp → ret.began ≤ load.stored

theorem Sound.empty : Sound num_buckets .empty where
  unique := by
    intro b i _ j _ present
    have vacant : State.empty.tier.hot.slots b i = 0 := rfl
    rw [vacant] at present
    exact absurd unpack_fp_zero present
  busy := fun id call began code impossible => nomatch impossible
  answered := fun ret impossible => nomatch impossible
  times := fun load impossible => nomatch impossible
  loads := fun load impossible => nomatch impossible

theorem Sound.begin (sound : Sound num_buckets state) {id : Nat} {call : Call}
    (stepped : state.step num_buckets (.begin id call) = some next) : Sound num_buckets next := by
  simp only [State.step] at stepped
  split at stepped
  · split at stepped
    · rename_i proper
      cases stepped
      have moved := later_tick state.tier
      constructor
      · exact sound.unique
      · intro other call' began code now
        dsimp only at now
        by_cases here : other = id
        · subst here
          rw [Function.update_self] at now
          cases now
          exact (call_assured proper).stable Later.trans moved
        · rw [Function.update_of_ne here] at now
          exact (sound.busy other call' began code now).stable Later.trans moved
      · exact fun ret member => post_stable _ _ moved (sound.answered ret member)
      · exact fun load member => Nat.lt_succ_of_lt (sound.times load member)
      · exact sound.loads
    · cases stepped
  · cases stepped

theorem Sound.access (sound : Sound num_buckets state) {id : Nat}
    (meets : Meets state (.access id))
    (stepped : state.step num_buckets (.access id) = some next) : Sound num_buckets next := by
  simp only [State.step] at stepped
  split at stepped
  · cases stepped
  · rename_i call began code now
    split at stepped
    · rename_i rest tier advanced
      cases stepped
      obtain ⟨access, coming, allowed, rfl, assured⟩ :=
        (sound.busy id call began code now).advance Later.refl sound.unique advanced
      have undisturbed : Undisturbed state.tier began access := by
        cases code with
        | ret answer => cases coming
        | op instr further =>
            cases coming
            simp only [Meets, now] at meets
            exact meets
      have moved := @later_tierSem state.tier access
      constructor
      · exact unique_tierSem sound.unique allowed undisturbed
      · intro other call' began' code' now'
        by_cases here : other = id
        · subst here
          dsimp only at now'
          rw [Function.update_self] at now'
          cases now'
          exact assured
        · dsimp only at now'
          rw [Function.update_of_ne here] at now'
          exact (sound.busy other call' began' code' now').stable Later.trans moved
      · exact fun ret member => post_stable _ _ moved (sound.answered ret member)
      · intro load member
        rcases loads_tierSem access load member with old | ⟨new, _⟩
        · exact Nat.lt_succ_of_lt (sound.times load old)
        · rw [new, clock_tierSem]
          exact Nat.lt_succ_self _
      · intro load member ret returned fp settles before home same
        rcases loads_tierSem access load member with old | ⟨_, i, rfl, word, stored⟩
        · exact sound.loads load old ret returned fp settles before home same
        · have below : i < kSlotsPerBucket := allowed
          have renewed := settles.renewed (sound.answered ret returned)
          rw [stored, home]
          rw [word, home] at same
          exact renewed.2 i below same
    · cases stepped

theorem Sound.finish (sound : Sound num_buckets state) {id : Nat}
    (stepped : state.step num_buckets (.finish id) = some next) : Sound num_buckets next := by
  simp only [State.step] at stepped
  split at stepped
  · rename_i call began answer now
    cases stepped
    have moved := later_tick state.tier
    have post := (sound.busy id call began _ now).returned Later.refl sound.unique
    constructor
    · exact sound.unique
    · intro other call' began' code now'
      dsimp only at now'
      by_cases here : other = id
      · rw [here, Function.update_self] at now'
        cases now'
      · rw [Function.update_of_ne here] at now'
        exact (sound.busy other call' began' code now').stable Later.trans moved
    · intro ret member
      rcases List.mem_cons.mp member with rfl | old
      · exact post_stable _ _ moved post
      · exact post_stable _ _ moved (sound.answered ret old)
    · exact fun load member => Nat.lt_succ_of_lt (sound.times load member)
    · intro load member ret returned fp settles before home same
      rcases List.mem_cons.mp returned with rfl | old
      · have earlier := sound.times load member
        dsimp only at before
        omega
      · exact sound.loads load member ret old fp settles before home same
  · cases stepped

theorem sound_reached (reached : (machine num_buckets).Reach Meets state) :
    Sound num_buckets state := by
  apply reached.invariant
  · rintro state rfl
    exact .empty
  · intro state action next sound meets stepped
    cases action with
    | begin id call => exact sound.begin stepped
    | access id => exact sound.access meets stepped
    | finish id => exact sound.finish stepped

structure OneSlot (num_buckets : Nat) (state : State) : Prop where
  unique : ∀ b, ∀ i < kSlotsPerBucket, ∀ j < kSlotsPerBucket,
    unpack_fp (state.tier.hot.slots b i) ≠ 0 →
      unpack_fp (state.tier.hot.slots b i) = unpack_fp (state.tier.hot.slots b j) → i = j
  /-- An insertion or removal leaves none of the entries behind that were there
  when it began. -/
  settled : ∀ ret ∈ state.returns, ∀ fp, ret.Settles fp → ∀ i < kSlotsPerBucket,
    unpack_fp (state.tier.hot.slots (bucket_index num_buckets fp) i) = fp →
      ret.began ≤ state.tier.stored (bucket_index num_buckets fp) i
  /-- A lookup answers with an entry that was stored after the insertions and
  removals had begun that returned before it. -/
  lookups : ∀ answered ∈ state.returns, ∀ fp off, answered.call = .lookup fp →
    answered.answer = .found (some off) →
      ∃ load ∈ state.tier.loads, answered.began ≤ load.time ∧ unpack_fp load.word = fp ∧
        unpack_off load.word = off ∧
          ∀ ret ∈ state.returns, ret.Settles fp → ret.ended ≤ answered.began →
            ret.began ≤ load.stored

theorem one_slot (reached : (machine num_buckets).Reach Meets state) :
    OneSlot num_buckets state := by
  have sound := sound_reached reached
  constructor
  · exact sound.unique
  · intro ret member fp settles
    exact (settles.renewed (sound.answered ret member)).2
  · intro answered member fp off is_lookup found
    have post := sound.answered answered member
    rw [is_lookup, found] at post
    obtain ⟨v, ⟨load, loaded, time, home, rfl⟩, same, offset⟩ := post off rfl
    refine ⟨load, loaded, time, same, offset, ?_⟩
    intro ret returned settles before
    exact sound.loads load loaded ret returned fp settles (Nat.le_trans before time) home same

/-! ### Runs with and without the race -/

def whole (id : Nat) (call : Call) (accesses : Nat) : List Action :=
  .begin id call :: List.replicate accesses (.access id) ++ [.finish id]

/-- Thread 0 has scanned for fingerprint 2 and found slot 1 empty when thread 1
empties slot 0 and stores the fingerprint there. -/
def stored_again : List Action :=
  whole 0 (.upsert 1 5) 19 ++ [.begin 0 (.upsert 2 6)] ++ List.replicate 16 (.access 0) ++
    whole 1 (.remove 1 1) 4 ++ whole 1 (.upsert 2 7) 19 ++ List.replicate 3 (.access 0) ++
    [.finish 0]

def left_behind : List Action := stored_again ++ whole 1 (.remove 2 1) 4 ++ whole 1 (.lookup 2) 4

theorem stored_twice :
    (∃ state, (machine 1).Reachable state ∧ state.tier.hot.slots 0 0 = pack 2 7 ∧
      state.tier.hot.slots 0 1 = pack 2 6 ∧ ¬Unique state.tier) ∧
      ∃ state, (machine 1).Reachable state ∧
        state.returns.take 2 = [⟨.lookup 2, 75, 80, .found (some 6)⟩,
          ⟨.remove 2 1, 69, 74, .removed (some true)⟩] := by
  have start : (machine 1).Reachable .empty := .start rfl
  constructor
  · have possible : ((machine 1).run .empty stored_again).map (fun state =>
        (state.tier.hot.slots 0 0, state.tier.hot.slots 0 1)) = some (pack 2 7, pack 2 6) := by
      decide +kernel
    obtain ⟨state, ran, values⟩ := Option.map_eq_some_iff.mp possible
    simp only [Prod.mk.injEq] at values
    refine ⟨state, start.run ran, values.1, values.2, fun unique => ?_⟩
    have together := unique 0 0 (by decide) 1 (by decide)
    rw [values.1, values.2] at together
    exact absurd (together (by decide) (by decide)) Nat.zero_ne_one
  · have possible : ((machine 1).run .empty left_behind).map (fun state =>
        state.returns.take 2) = some [⟨.lookup 2, 75, 80, .found (some 6)⟩,
          ⟨.remove 2 1, 69, 74, .removed (some true)⟩] := by
      decide +kernel
    obtain ⟨state, ran, values⟩ := Option.map_eq_some_iff.mp possible
    exact ⟨state, start.run ran, values⟩

def check (state : State) : Action → Bool
  | .access id =>
      match state.threads id with
      | .busy _ began (.op access _) => decide (Undisturbed state.tier began access)
      | _ => true
  | _ => true

theorem check_meets (action : Action) (checked : check state action = true) :
    Meets state action := by
  cases action with
  | access id =>
      simp only [check] at checked
      simp only [Meets]
      split at checked
      · exact of_decide_eq_true checked
      · trivial
  | _ => trivial

/-- Two insertions of different fingerprints and a lookup take turns. -/
def taking_turns : List Action :=
  [.begin 0 (.upsert 2 6), .begin 1 (.upsert 3 7), .begin 2 (.lookup 3)] ++
    (List.replicate 16 [Action.access 0, .access 1]).flatten ++
    [.access 0, .access 1, .access 0, .access 0, .finish 0] ++
    whole 0 (.remove 2 1) 4 ++ whole 0 (.upsert 3 8) 19 ++ List.replicate 3 (.access 2)

theorem one_slot_taking_turns :
    ∃ state, (machine 1).Reach Meets state ∧ OneSlot 1 state := by
  have possible : (((machine 1).checked check).run .empty taking_turns).isSome = true := by
    decide +kernel
  obtain ⟨state, ran⟩ := Option.isSome_iff_exists.mp possible
  have start : (machine 1).Reach Meets .empty := .start rfl
  have reached := start.run_checked (fun _ => check_meets) ran
  exact ⟨state, reached, one_slot reached⟩

end Hiom.HotTier.Race
