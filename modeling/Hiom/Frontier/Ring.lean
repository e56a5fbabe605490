import Hiom.Lib.Count
import Hiom.Lib.Machine
import Hiom.Frontier.Pending

/-!
Producers and flushers on the pending ring, one load or compare-and-swap at a
time, and checkpoints that scan the ring slot by slot while it changes. The
counters of registrations per block are what the words of the ring stand for.
-/

namespace Hiom.Frontier.Ring

def kNoActiveBlock : Nat := 2 ^ 64 - 1

/-- Where a thread is. `cur` is the word that it has loaded last; `steady` tells
which blocks have been outstanding since its scan began, and no step depends on
it. -/
inductive Op where
  | idle
  | register_load (b : Nat)
  | register (b cur : Nat)
  | stalled (b : Nat)
  | retire_load (b : Nat)
  | retire (b cur : Nat)
  | scan (idx min_b : Nat) (steady : Nat → Bool)
  | scanned (min_b : Nat) (steady : Nat → Bool)
  | aborted

/-- `registered`, `begun` and `retired` count per block the registrations that
are complete, and the retires that have begun and that are complete. -/
structure State where
  ring : PendingBlocks
  ops : Nat → Op
  registered : Nat → Nat
  begun : Nat → Nat
  retired : Nat → Nat

def State.outstanding (state : State) (b : Nat) : Nat := state.registered b - state.retired b

inductive Action where
  | pending_register (thread b : Nat)
  | pending_retire (thread b : Nat)
  | earliest_pending_block (thread : Nat)
  | move (thread : Nat) (spurious : Bool)

def State.at (state : State) (thread : Nat) (op : Op) : State :=
  { state with ops := Function.update state.ops thread op }

def State.set_slot (state : State) (b word : Nat) : State :=
  { state with ring := Function.update state.ring (slot_of b) word }

def State.exchange (state : State) (thread b cur desired : Nat) (spurious : Bool) : State :=
  if state.ring (slot_of b) = cur ∧ spurious = false then
    { (state.set_slot b desired).at thread .idle with
      registered := Function.update state.registered b (state.registered b + 1) }
  else state.at thread (.register b (state.ring (slot_of b)))

def State.register_step (state : State) (thread b cur : Nat) (spurious : Bool) : State :=
  if count_of cur = 0 then state.exchange thread b cur (pack b 1) spurious
  else if block_of cur = b then
    if count_of cur = kCountMask then state.at thread .aborted
    else state.exchange thread b cur (cur + 1) spurious
  else state.at thread (.stalled b)

def State.retire_step (state : State) (thread b cur : Nat) (spurious : Bool) : State :=
  if block_of cur ≠ b ∨ count_of cur = 0 then state.at thread .aborted
  else if state.ring (slot_of b) = cur ∧ spurious = false then
    { (state.set_slot b (cur - 1)).at thread .idle with
      retired := Function.update state.retired b (state.retired b + 1) }
  else state.at thread (.retire b (state.ring (slot_of b)))

def State.scan_step (state : State) (thread idx min_b : Nat) (steady : Nat → Bool) : State :=
  if idx < kWindow then
    let s := state.ring idx
    if count_of s = 0 then state.at thread (.scan (idx + 1) min_b steady)
    else
      let b := block_of s
      state.at thread (.scan (idx + 1) (if b < min_b then b else min_b) steady)
  else state.at thread (.scanned min_b steady)

def State.move (state : State) (thread : Nat) (spurious : Bool) : Option State :=
  match state.ops thread with
  | .idle | .aborted | .scanned _ _ => none
  | .register_load b => some (state.at thread (.register b (state.ring (slot_of b))))
  | .register b cur => some (state.register_step thread b cur spurious)
  | .stalled b => some (state.at thread (.register_load b))
  | .retire_load b => some (state.at thread (.retire b (state.ring (slot_of b))))
  | .retire b cur => some (state.retire_step thread b cur spurious)
  | .scan idx min_b steady => some (state.scan_step thread idx min_b steady)

def Op.observe (outstanding : Nat → Nat) : Op → Op
  | .scan idx min_b steady => .scan idx min_b (fun b => steady b && 0 < outstanding b)
  | op => op

def State.observe (state : State) : State :=
  { state with ops := fun thread => (state.ops thread).observe state.outstanding }

/-- A retire of a block begins only when there is a complete registration of it
that no other retire is for. -/
def State.act (state : State) : Action → Option State
  | .pending_register thread b =>
      match state.ops thread with
      | .idle => if b ≤ kCountMask then some (state.at thread (.register_load b)) else none
      | _ => none
  | .pending_retire thread b =>
      match state.ops thread with
      | .idle =>
          if state.begun b < state.registered b then
            some { state.at thread (.retire_load b) with
              begun := Function.update state.begun b (state.begun b + 1) }
          else none
      | _ => none
  | .earliest_pending_block thread =>
      match state.ops thread with
      | .idle | .scanned _ _ =>
          some (state.at thread (.scan 0 kNoActiveBlock (fun b => 0 < state.outstanding b)))
      | _ => none
  | .move thread spurious => state.move thread spurious

def State.step (state : State) (action : Action) : Option State :=
  (state.act action).map State.observe

def State.empty : State where
  ring := fun _ => 0
  ops := fun _ => .idle
  registered := fun _ => 0
  begun := fun _ => 0
  retired := fun _ => 0

def ring_machine : Machine State Action where
  initial := fun state => state = State.empty
  step := State.step

def Unsaturated (state : State) (_ : Action) : Prop := ∀ b, state.outstanding b < kCountMask

structure RingExact (state : State) : Prop where
  slot : ∀ idx, idx < kWindow →
    (count_of (state.ring idx) = 0 ∧ ∀ b, slot_of b = idx → state.outstanding b = 0) ∨
    (0 < count_of (state.ring idx) ∧ slot_of (block_of (state.ring idx)) = idx ∧
      state.outstanding (block_of (state.ring idx)) = count_of (state.ring idx) ∧
      ∀ b, slot_of b = idx → state.outstanding b ≠ 0 → b = block_of (state.ring idx))
  alone : ∀ b other, slot_of b = slot_of other → state.outstanding b ≠ 0 →
    state.outstanding other ≠ 0 → b = other
  running : ∀ thread, state.ops thread ≠ .aborted
  scanned : ∀ thread min_b steady, state.ops thread = .scanned min_b steady →
    ∀ b, steady b = true → min_b ≤ b

/-! ### What the threads have loaded -/

/-- A word loaded for a register is not full, and one loaded for a retire shows
the block: some registration of it was outstanding. -/
def Op.Sound : Op → Prop
  | .register_load b | .stalled b => b ≤ kCountMask
  | .register b cur => b ≤ kCountMask ∧ (block_of cur = b → count_of cur ≠ kCountMask)
  | .retire b cur => block_of cur = b ∧ count_of cur ≠ 0
  | .scan idx min_b steady => ∀ b, steady b = true → slot_of b < idx → min_b ≤ b
  | .scanned min_b steady => ∀ b, steady b = true → min_b ≤ b
  | .aborted => False
  | .idle | .retire_load _ => True

def Op.retires : Op → Option Nat
  | .retire_load b | .retire b _ => some b
  | _ => none

def Op.Retiring (b : Nat) (op : Op) : Prop := op.retires = some b

structure Counted (state : State) : Prop where
  ops : ∀ thread, (state.ops thread).Sound
  retiring : ∀ b, ∃ retires, Counts (Op.Retiring b) state.ops retires ∧
    state.begun b = state.retired b + retires
  begun : ∀ b, state.begun b ≤ state.registered b
  counts : ∀ b, pending_count state.ring b = state.outstanding b
  tags : ∀ idx, count_of (state.ring idx) ≠ 0 → slot_of (block_of (state.ring idx)) = idx

def Observed (state : State) : Prop :=
  ∀ thread idx min_b steady, state.ops thread = .scan idx min_b steady →
    ∀ b, steady b = true → 0 < state.outstanding b

variable {state next : State} {thread b cur : Nat} {spurious : Bool}

theorem empty_counted : Counted State.empty where
  ops := fun _ => trivial
  retiring := fun _ => ⟨0, Counts.none_meets (fun _ retiring => nomatch retiring), rfl⟩
  begun := fun _ => Nat.le_refl _
  counts := by
    intro b
    simp [pending_count, State.empty, State.outstanding, count_of]
  tags := fun _ used => absurd (by simp [State.empty, count_of]) used

/-- A step that only moves a thread on. -/
theorem Counted.at (counted : Counted state) (op : Op) (sound : op.Sound)
    (same : op.retires = (state.ops thread).retires) : Counted (state.at thread op) where
  ops := by
    intro other
    simp only [State.at, Function.update_apply]
    split
    · exact sound
    · exact counted.ops other
  retiring := by
    intro b
    obtain ⟨retires, counts, total⟩ := counted.retiring b
    exact ⟨retires, counts.keep (by rw [Op.Retiring, Op.Retiring, same]), total⟩
  begun := counted.begun
  counts := counted.counts
  tags := counted.tags

theorem Counted.to_idle (counted : Counted state)
    (other : (state.ops thread).retires = none) : Counted (state.at thread .idle) :=
  counted.at .idle trivial other.symm

theorem observe_retires (outstanding : Nat → Nat) (op : Op) :
    (op.observe outstanding).retires = op.retires := by
  cases op <;> rfl

theorem Op.Sound.observe {op : Op} (sound : op.Sound) (outstanding : Nat → Nat) :
    (op.observe outstanding).Sound := by
  cases op with
  | scan idx min_b steady =>
      intro b steady_still scanned
      exact sound b (Bool.and_eq_true_iff.mp steady_still).1 scanned
  | _ => exact sound

theorem Counted.observe (counted : Counted state) : Counted state.observe where
  ops := fun thread => (counted.ops thread).observe state.outstanding
  retiring := by
    intro b
    obtain ⟨retires, ⟨members, exact, card⟩, total⟩ := counted.retiring b
    refine ⟨retires, ⟨members, fun thread => ?_, card⟩, total⟩
    rw [exact thread, Op.Retiring, Op.Retiring, State.observe, observe_retires]
  begun := counted.begun
  counts := counted.counts
  tags := counted.tags

theorem observe_observed (state : State) : Observed state.observe := by
  intro thread idx min_b steady scanning b steady_still
  simp only [State.observe] at scanning
  cases op : state.ops thread <;> rw [op] at scanning <;> cases scanning
  exact of_decide_eq_true (Bool.and_eq_true_iff.mp steady_still).2

/-! ### Registers -/

theorem Counted.slot (counted : Counted state) (pending : 0 < state.outstanding b) :
    count_of (state.ring (slot_of b)) ≠ 0 ∧ block_of (state.ring (slot_of b)) = b :=
  slot_of_counted ((counted.counts b).symm ▸ pending)

/-- What a thread loads for a register. -/
theorem Counted.load_register (counted : Counted state) (room : ∀ b, state.outstanding b < kCountMask)
    (tagged : b ≤ kCountMask) : (Op.register b (state.ring (slot_of b))).Sound := by
  refine ⟨tagged, fun tag full => ?_⟩
  have count := counted.counts b
  rw [pending_count, if_pos tag, full] at count
  exact absurd count (room b).ne'

/-- What a thread loads for a retire. -/
theorem Counted.load_retire (counted : Counted state) (retiring : (state.ops thread).Retiring b) :
    0 < state.outstanding b := by
  obtain ⟨retires, counts, total⟩ := counted.retiring b
  have positive := counts.pos retiring
  have begun := counted.begun b
  simp only [State.outstanding]
  omega

theorem Counted.registered (counted : Counted state) {after : PendingBlocks}
    (registered : pending_register state.ring b = some after)
    (tags : ∀ idx, count_of (after idx) ≠ 0 → slot_of (block_of (after idx)) = idx)
    (idle : (state.ops thread).retires = none) :
    Counted { state.at thread .idle with
      ring := after
      registered := Function.update state.registered b (state.registered b + 1) } where
  ops := (counted.to_idle idle).ops
  retiring := (counted.to_idle idle).retiring
  begun := by
    intro other
    have begun := counted.begun other
    simp only [State.at, Function.update_apply]
    split
    · rename_i same
      subst same
      omega
    · exact begun
  counts := by
    intro other
    rw [register_count registered, counted.counts]
    obtain ⟨retires, _, total⟩ := counted.retiring other
    have begun := counted.begun other
    simp only [State.outstanding, State.at, Function.update_apply]
    split
    · rename_i same
      subst same
      omega
    · rfl
  tags := tags

/-- The tag of a slot that counts belongs to its residue, also once the word of a
slot is replaced by one with the tag of its block. -/
theorem tags_update {ring : PendingBlocks} {word : Nat}
    (tags : ∀ idx, count_of (ring idx) ≠ 0 → slot_of (block_of (ring idx)) = idx)
    (tag : count_of word ≠ 0 → block_of word = b) (idx : Nat)
    (used : count_of (Function.update ring (slot_of b) word idx) ≠ 0) :
    slot_of (block_of (Function.update ring (slot_of b) word idx)) = idx := by
  by_cases here : idx = slot_of b
  · subst here
    rw [Function.update_self] at used ⊢
    rw [tag used]
  · rw [Function.update_of_ne here] at used ⊢
    exact tags idx used

theorem Counted.exchange {desired : Nat} (counted : Counted state)
    (reload : Counted (state.at thread (.register b (state.ring (slot_of b)))))
    (registers : state.ring (slot_of b) = cur →
      pending_register state.ring b = some (Function.update state.ring (slot_of b) desired))
    (tag : block_of desired = b) (idle : (state.ops thread).retires = none) :
    Counted (state.exchange thread b cur desired spurious) := by
  unfold State.exchange
  split
  · rename_i exchanged
    exact counted.registered (registers exchanged.1) (tags_update counted.tags (fun _ => tag)) idle
  · exact reload

theorem Counted.register_step (counted : Counted state)
    (room : ∀ b, state.outstanding b < kCountMask) (stage : state.ops thread = .register b cur) :
    Counted (state.register_step thread b cur spurious) := by
  have sound : b ≤ kCountMask ∧ (block_of cur = b → count_of cur ≠ kCountMask) := by
    have sound := counted.ops thread
    rwa [stage] at sound
  have idle : (state.ops thread).retires = none := by
    rw [stage]
    rfl
  have reload : Counted (state.at thread (.register b (state.ring (slot_of b)))) :=
    counted.at _ (counted.load_register room sound.1) idle.symm
  have ranged : ¬b > kCountMask := Nat.not_lt.mpr sound.1
  unfold State.register_step
  split
  · rename_i free
    refine counted.exchange reload (fun same => ?_) (pack_tag b).1 idle
    exact (if_neg ranged).trans (if_pos (same ▸ free))
  · rename_i used
    split
    · rename_i tag
      split
      · rename_i full
        exact absurd full (sound.2 tag)
      · rename_i room
        refine counted.exchange reload (fun same => ?_) ((count_of_succ room).2.trans tag) idle
        subst same
        exact (if_neg ranged).trans ((if_neg used).trans ((if_pos tag).trans (if_neg room)))
    · exact counted.at (.stalled b) sound.1 idle.symm

/-! ### Retires -/

theorem Counted.retired (counted : Counted state) {after : PendingBlocks}
    (retired : pending_retire state.ring b = some after)
    (tags : ∀ idx, count_of (after idx) ≠ 0 → slot_of (block_of (after idx)) = idx)
    (retiring : (state.ops thread).Retiring b) :
    Counted { state.at thread .idle with
      ring := after
      retired := Function.update state.retired b (state.retired b + 1) } where
  ops := by
    intro other
    simp only [State.at, Function.update_apply]
    split
    · trivial
    · exact counted.ops other
  retiring := by
    intro other
    obtain ⟨retires, counts, total⟩ := counted.retiring other
    simp only [State.at, Function.update_apply]
    split
    · rename_i same
      subst same
      obtain ⟨rest, rfl⟩ : ∃ rest, retires = rest + 1 :=
        Nat.exists_eq_succ_of_ne_zero (counts.pos retiring).ne'
      exact ⟨rest, counts.leave retiring (fun idle => nomatch idle), by omega⟩
    · rename_i different
      refine ⟨retires, counts.keep (iff_of_false (fun idle => nomatch idle) ?_), total⟩
      exact fun both => different (Option.some.inj (both.symm.trans retiring))
  begun := counted.begun
  counts := by
    intro other
    have count := retire_count retired other
    rw [counted.counts] at count
    obtain ⟨retires, counts, total⟩ := counted.retiring other
    have begun := counted.begun other
    simp only [State.outstanding, State.at, Function.update_apply] at count ⊢
    split
    · rename_i same
      subst same
      have positive := counts.pos retiring
      rw [if_pos rfl] at count
      omega
    · rename_i different
      rw [if_neg different] at count
      exact count.symm
  tags := tags

theorem Counted.retire_step (counted : Counted state) (stage : state.ops thread = .retire b cur) :
    Counted (state.retire_step thread b cur spurious) := by
  have sound : block_of cur = b ∧ count_of cur ≠ 0 := by
    have sound := counted.ops thread
    rwa [stage] at sound
  have retiring : (state.ops thread).Retiring b := by
    rw [stage]
    rfl
  have pending := counted.load_retire retiring
  unfold State.retire_step
  split
  · rename_i imbalance
    exact (imbalance.elim (fun other => other sound.1) sound.2).elim
  · split
    · rename_i exchanged
      rw [← exchanged.1] at sound ⊢
      have retired : pending_retire state.ring b =
          some (Function.update state.ring (slot_of b) (state.ring (slot_of b) - 1)) :=
        if_neg (not_or.mpr ⟨not_not.mpr sound.1, sound.2⟩)
      exact counted.retired retired
        (tags_update counted.tags (fun _ => (count_of_pred sound.2).2.trans sound.1)) retiring
    · refine counted.at (.retire b _) (And.symm (counted.slot pending)) ?_
      rw [stage]
      rfl

theorem Counted.begin_retire (counted : Counted state)
    (unmatched : state.begun b < state.registered b) (idle : (state.ops thread).retires = none) :
    Counted { state.at thread (.retire_load b) with
      begun := Function.update state.begun b (state.begun b + 1) } where
  ops := by
    intro other
    simp only [State.at, Function.update_apply]
    split
    · trivial
    · exact counted.ops other
  retiring := by
    intro other
    obtain ⟨retires, counts, total⟩ := counted.retiring other
    have before : ¬(state.ops thread).Retiring other := fun retiring =>
      nomatch idle.symm.trans retiring
    simp only [State.at, Function.update_apply]
    split
    · rename_i same
      subst same
      exact ⟨retires + 1, counts.enter before rfl, by omega⟩
    · rename_i different
      refine ⟨retires, counts.keep (iff_of_false ?_ before), total⟩
      exact fun retiring => different (Option.some.inj retiring).symm
  begun := by
    intro other
    simp only [Function.update_apply]
    split
    · rename_i same
      subst same
      exact unmatched
    · exact counted.begun other
  counts := counted.counts
  tags := counted.tags

/-! ### Scans -/

theorem Counted.scan_step {idx min_b : Nat} {steady : Nat → Bool} (counted : Counted state)
    (observed : Observed state) (stage : state.ops thread = .scan idx min_b steady) :
    Counted (state.scan_step thread idx min_b steady) := by
  have sound : ∀ b, steady b = true → slot_of b < idx → min_b ≤ b := by
    have sound := counted.ops thread
    rwa [stage] at sound
  have idle : (state.ops thread).retires = none := by
    rw [stage]
    rfl
  unfold State.scan_step
  split
  · dsimp only
    split
    · rename_i unused
      refine counted.at (.scan _ _ _) (fun b steady_still scanned => ?_) idle.symm
      have pending := counted.slot (observed thread idx min_b steady stage b steady_still)
      have before : slot_of b ≠ idx := fun here => pending.1 (here ▸ unused)
      exact sound b steady_still (by omega)
    · rename_i used
      refine counted.at (.scan _ _ _) (fun b steady_still scanned => ?_) idle.symm
      by_cases here : slot_of b = idx
      · have pending := counted.slot (observed thread idx min_b steady stage b steady_still)
        rw [here] at pending
        rw [pending.2]
        split <;> omega
      · have before := sound b steady_still (by omega)
        split <;> omega
  · rename_i past
    refine counted.at (.scanned _ _) (fun b steady_still => ?_) idle.symm
    have inside := slot_of_lt b
    exact sound b steady_still (by omega)

/-! ### Runs -/

theorem Counted.move (counted : Counted state) (observed : Observed state)
    (room : ∀ b, state.outstanding b < kCountMask)
    (stepped : state.move thread spurious = some next) : Counted next := by
  have sound := counted.ops thread
  unfold State.move at stepped
  split at stepped
  · cases stepped
  · cases stepped
  · cases stepped
  · rename_i b stage
    rw [stage] at sound
    cases stepped
    exact counted.at _ (counted.load_register room sound) (by rw [stage]; rfl)
  · rename_i stage
    cases stepped
    exact counted.register_step room stage
  · rename_i b stage
    rw [stage] at sound
    cases stepped
    exact counted.at (.register_load b) sound (by rw [stage]; rfl)
  · rename_i b stage
    cases stepped
    have retiring : (state.ops thread).Retiring b := by
      rw [stage]
      rfl
    refine counted.at _ (And.symm (counted.slot (counted.load_retire retiring))) ?_
    rw [stage]
    rfl
  · rename_i stage
    cases stepped
    exact counted.retire_step stage
  · rename_i stage
    cases stepped
    exact counted.scan_step observed stage

theorem Counted.act {action : Action} (counted : Counted state) (observed : Observed state)
    (room : ∀ b, state.outstanding b < kCountMask) (stepped : state.act action = some next) :
    Counted next := by
  cases action with
  | pending_register thread b =>
      simp only [State.act] at stepped
      split at stepped
      · rename_i stage
        split at stepped
        · rename_i tagged
          cases stepped
          exact counted.at (.register_load b) tagged (by rw [stage]; rfl)
        · cases stepped
      · cases stepped
  | pending_retire thread b =>
      simp only [State.act] at stepped
      split at stepped
      · rename_i stage
        split at stepped
        · rename_i unmatched
          cases stepped
          exact counted.begin_retire unmatched (by rw [stage]; rfl)
        · cases stepped
      · cases stepped
  | earliest_pending_block thread =>
      simp only [State.act] at stepped
      split at stepped
      · rename_i stage
        cases stepped
        exact counted.at (.scan _ _ _) (fun _ _ scanned => absurd scanned (Nat.not_lt_zero _))
          (by rw [stage]; rfl)
      · rename_i stage
        cases stepped
        exact counted.at (.scan _ _ _) (fun _ _ scanned => absurd scanned (Nat.not_lt_zero _))
          (by rw [stage]; rfl)
      · cases stepped
  | move thread spurious => exact counted.move observed room stepped

theorem ring_counted (reached : ring_machine.Reach Unsaturated state) :
    Counted state ∧ Observed state := by
  apply reached.invariant
  · rintro _ rfl
    exact ⟨empty_counted, fun _ _ _ _ idle => nomatch idle⟩
  · intro state action next invariant room stepped
    obtain ⟨acted, act, rfl⟩ := Option.map_eq_some_iff.mp stepped
    exact ⟨(invariant.1.act invariant.2 room act).observe, observe_observed acted⟩

theorem Counted.exact (counted : Counted state) : RingExact state where
  slot := by
    intro idx inside
    by_cases used : count_of (state.ring idx) = 0
    · refine .inl ⟨used, fun b residue => ?_⟩
      subst residue
      rw [← counted.counts, pending_count, used]
      split <;> rfl
    · have tag := counted.tags idx used
      refine .inr ⟨Nat.pos_of_ne_zero used, tag, ?_, fun b residue pending => ?_⟩
      · rw [← counted.counts, pending_count, tag, if_pos rfl]
      · subst residue
        exact ((counted.slot (Nat.pos_of_ne_zero pending)).2).symm
  alone := by
    intro b other residue pending pending_other
    have tag := (counted.slot (Nat.pos_of_ne_zero pending)).2
    have tag_other := (counted.slot (Nat.pos_of_ne_zero pending_other)).2
    rw [residue] at tag
    exact tag.symm.trans tag_other
  running := by
    intro thread aborted
    have sound := counted.ops thread
    rw [aborted] at sound
    exact sound
  scanned := by
    intro thread min_b steady scanned b steady_still
    have sound := counted.ops thread
    rw [scanned] at sound
    exact sound b steady_still

theorem ring_exact (reached : ring_machine.Reach Unsaturated state) : RingExact state :=
  (ring_counted reached).1.exact

/-! ### Short runs -/

theorem exchange_registered (state : State) (thread block cur desired : Nat) (spurious : Bool)
    (b : Nat) :
    (state.exchange thread block cur desired spurious).registered b ≤ state.registered b + 1 := by
  unfold State.exchange
  split
  · simp only [Function.update_apply]
    split
    · rename_i same
      rw [same]
    · exact Nat.le_succ _
  · exact Nat.le_succ _

theorem move_registered (stepped : state.move thread spurious = some next) (b : Nat) :
    next.registered b ≤ state.registered b + 1 := by
  unfold State.move at stepped
  split at stepped <;> cases stepped
  · exact Nat.le_succ _
  · unfold State.register_step
    split
    · exact exchange_registered state _ _ _ _ _ b
    · split
      · split
        · exact Nat.le_succ _
        · exact exchange_registered state _ _ _ _ _ b
      · exact Nat.le_succ _
  · exact Nat.le_succ _
  · exact Nat.le_succ _
  · unfold State.retire_step
    split
    · exact Nat.le_succ _
    · split <;> exact Nat.le_succ _
  · unfold State.scan_step
    split
    · dsimp only
      split <;> exact Nat.le_succ _
    · exact Nat.le_succ _

theorem step_registered {action : Action} (stepped : state.step action = some next) (b : Nat) :
    next.registered b ≤ state.registered b + 1 := by
  obtain ⟨acted, act, rfl⟩ := Option.map_eq_some_iff.mp stepped
  change acted.registered b ≤ _
  cases action with
  | move thread spurious => exact move_registered act b
  | pending_register thread block =>
      simp only [State.act] at act
      split at act
      · split at act <;> cases act
        exact Nat.le_succ _
      · cases act
  | pending_retire thread block =>
      simp only [State.act] at act
      split at act
      · split at act <;> cases act
        exact Nat.le_succ _
      · cases act
  | earliest_pending_block thread =>
      simp only [State.act] at act
      split at act <;> cases act <;> exact Nat.le_succ _

/-- A run with fewer steps than a count can hold does not saturate. -/
theorem short_run {actions : List Action} {bound : Nat}
    (reached : ring_machine.Reach Unsaturated state) (few : ∀ b, state.registered b ≤ bound)
    (short : bound + actions.length ≤ kCountMask)
    (ran : ring_machine.run state actions = some next) :
    ring_machine.Reach Unsaturated next := by
  induction actions generalizing state bound with
  | nil =>
      cases ran
      exact reached
  | cons action rest ih =>
      rw [List.length_cons] at short
      simp only [Machine.run] at ran
      split at ran
      · rename_i middle stepped
        have room : Unsaturated state action := fun b =>
          Nat.lt_of_le_of_lt (Nat.sub_le _ _) (Nat.lt_of_le_of_lt (few b) (by omega))
        have few_next : ∀ b, middle.registered b ≤ bound + 1 := fun b =>
          Nat.le_trans (step_registered stepped b) (Nat.succ_le_succ (few b))
        exact ih (.move reached room stepped) few_next (by omega) ran
      · cases ran

/-- Blocks 3 and 65539 share a slot. The producer of the second waits until the
last registration of the first is retired, and exchanges a stale word once. -/
def aliased : List Action :=
  [.pending_register 0 3, .move 0 false, .pending_register 1 65539, .move 1 false, .move 0 false,
    .move 1 false, .move 1 false, .move 1 false, .move 1 false, .pending_retire 2 3, .move 2 false,
    .move 2 false, .move 1 false, .move 1 false, .earliest_pending_block 3, .move 3 false,
    .move 1 false, .move 1 false]

theorem ring_exact_aliased :
    ∃ state, ring_machine.run State.empty aliased = some state ∧
      state.ring 3 = pack 65539 1 ∧ RingExact state := by
  obtain ⟨state, ran, word⟩ : ∃ state, ring_machine.run State.empty aliased = some state ∧
      state.ring 3 = pack 65539 1 := ⟨_, rfl, by decide⟩
  have reached : ring_machine.Reach Unsaturated state :=
    short_run (.start rfl) (fun _ => Nat.le_refl 0) (by decide) ran
  exact ⟨state, ran, word, ring_exact reached⟩

end Hiom.Frontier.Ring
