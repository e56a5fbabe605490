import Hiom.Commit.Lane

/-!
`flush_and_wait` beside the pushes and drains of the whole commit buffer. The
waiting thread reads the counters of the lanes one after the other, then the
flags of the flushers.
-/

namespace Hiom.CommitBuffer.Wait

def kNumLanes : Nat := 8

inductive Op where
  | kPut
  | kRemove
  deriving DecidableEq

/-- `block` is that of the offset, none for a tombstone. `ticket` is not in the
code: it tells one push from another. -/
structure CommitEntry where
  ticket : Nat
  op : Op
  fp64 : Nat
  block : Option Nat
  deriving DecidableEq

def lane_of_fp64 (fp64 : Nat) : Nat := (fp64 >>> 61) &&& (kNumLanes - 1)

structure Config where
  num_flushers : Nat
  checkpoint : Bool

def Config.lanes_per (cfg : Config) : Nat := kNumLanes / cfg.num_flushers

def Config.flusher_of_lane (cfg : Config) (lane_id : Nat) : Nat := lane_id / cfg.lanes_per

def Config.in_lanes_mask (cfg : Config) (flusher_id lane : Nat) : Bool :=
  decide (flusher_id * cfg.lanes_per ≤ lane ∧ lane < flusher_id * cfg.lanes_per + cfg.lanes_per)

def Config.registers (cfg : Config) (e : CommitEntry) : Bool :=
  cfg.checkpoint && e.op == .kPut && e.block.isSome

/-! ### Pushes, drains and the wait -/

inductive Push where
  | idle
  | registered (e : CommitEntry)
  | counted (e : CommitEntry) (before : Nat)
  | enqueued (lane before : Nat)

/-- What a drain remembers: its lane, the lanes of the mask that are left, what
the round has drained, and the batch. -/
structure Cursor where
  lane : Nat
  bits : List Nat
  round_total : Nat
  batch : List CommitEntry

/-- Where the thread is that holds a flusher's mutex, the flusher's own one or
one that flushes inline. `load_hint`, `dequeue`, `fetch_sub` and `fetch_and` are
the stages of `try_drain_lane`, `cold` and `retire` those of `apply_batch`. -/
inductive Drain where
  | outside
  | locked
  | read_mask
  | lanes (bits : List Nat) (round_total : Nat)
  | load_hint (cur : Cursor)
  | dequeue (cur : Cursor) (hint : Nat)
  | fetch_sub (cur : Cursor) (got : Nat)
  | fetch_and (cur : Cursor)
  | cold (cur : Cursor) (rest : List CommitEntry)
  | retire (cur : Cursor) (rest : List CommitEntry)
  | clear_flag
  | unlock

/-- Where the caller of `flush_and_wait` is. `recheck` is 0 for the first look
at the counters and flags, and counts the four that follow. -/
inductive Waiter where
  | outside
  | size_hint (recheck lane total : Nat)
  | any_flushing (recheck i : Nat)
  | returned

/-- `pushes` is the number of pushes under way and `pushed` what they have
begun to push; `applied` has been written to the cold tier or superseded there,
and `retired` is what `pending_retire` was called for. -/
structure State where
  approx_size : Nat → Nat
  q : Nat → List CommitEntry
  nonempty : Nat → Bool
  flushing_in_progress : Nat → Bool
  producers : Nat → Push
  drains : Nat → Drain
  waiter : Waiter
  pushes : Nat
  pushed : List CommitEntry
  applied : List CommitEntry
  retired : List CommitEntry

def State.empty : State where
  approx_size := fun _ => 0
  q := fun _ => []
  nonempty := fun _ => false
  flushing_in_progress := fun _ => false
  producers := fun _ => .idle
  drains := fun _ => .outside
  waiter := .outside
  pushes := 0
  pushed := []
  applied := []
  retired := []

/-- A dequeue gives up to as many entries as it is asked for. -/
inductive Action where
  | push (producer : Nat) (op : Op) (fp64 : Nat) (block : Option Nat)
  | producer (producer : Nat)
  | drain (flusher_id : Nat)
  | drainer (flusher_id take : Nat)
  | flush_and_wait
  | waiter
  | leave

def State.at (state : State) (producer : Nat) (stage : Push) : State :=
  { state with producers := Function.update state.producers producer stage }

def State.goes (state : State) (flusher_id : Nat) (stage : Drain) : State :=
  { state with drains := Function.update state.drains flusher_id stage }

def State.set_flag (state : State) (flusher_id : Nat) (flag : Bool) : State :=
  { state with
    flushing_in_progress := Function.update state.flushing_in_progress flusher_id flag }

def State.push_step (state : State) (producer : Nat) : Option State :=
  match state.producers producer with
  | .idle => none
  | .registered e =>
      let lane := lane_of_fp64 e.fp64
      some ({ state with
        approx_size := Function.update state.approx_size lane (state.approx_size lane + 1)
        }.at producer (.counted e (state.approx_size lane)))
  | .counted e before =>
      let lane := lane_of_fp64 e.fp64
      some ({ state with q := Function.update state.q lane (state.q lane ++ [e]) }.at producer
        (.enqueued lane before))
  | .enqueued lane before =>
      some ({ state with
        nonempty := Function.update state.nonempty lane (state.nonempty lane || before == 0)
        pushes := state.pushes - 1 }.at producer .idle)

section

variable (cfg : Config)

def State.drain_step (state : State) (f take : Nat) : Option State :=
  match state.drains f with
  | .outside => none
  | .locked => some ((state.set_flag f true).goes f .read_mask)
  | .read_mask =>
      let bits := (List.range kNumLanes).filter (fun lane =>
        state.nonempty lane && cfg.in_lanes_mask f lane)
      if bits.isEmpty then some (state.goes f .clear_flag) else some (state.goes f (.lanes bits 0))
  | .lanes [] round_total =>
      if round_total = 0 then some (state.goes f .clear_flag) else some (state.goes f .read_mask)
  | .lanes (lane :: bits) round_total =>
      some (state.goes f (.load_hint ⟨lane, bits, round_total, []⟩))
  | .load_hint cur => some (state.goes f (.dequeue cur (state.approx_size cur.lane)))
  | .dequeue cur hint =>
      let got := min take (min (min kPerCall (hint + 64)) (state.q cur.lane).length)
      if got = 0 then
        if cur.batch.isEmpty then some (state.goes f (.lanes cur.bits cur.round_total))
        else some (state.goes f (.cold cur cur.batch))
      else
        some ({ state with
          q := Function.update state.q cur.lane ((state.q cur.lane).drop got) }.goes f
            (.fetch_sub { cur with batch := cur.batch ++ (state.q cur.lane).take got } got))
  | .fetch_sub cur got =>
      some ({ state with
        approx_size := Function.update state.approx_size cur.lane
          (state.approx_size cur.lane - got) }.goes f
            (if state.approx_size cur.lane = got then .fetch_and cur else .load_hint cur))
  | .fetch_and cur =>
      some ({ state with nonempty := Function.update state.nonempty cur.lane false }.goes f
        (.load_hint cur))
  | .cold cur [] => some (state.goes f (.retire cur cur.batch))
  | .cold cur (e :: rest) =>
      some ({ state with applied := e :: state.applied }.goes f (.cold cur rest))
  | .retire cur [] =>
      some (state.goes f (.lanes cur.bits (cur.round_total + cur.batch.length)))
  | .retire cur (e :: rest) =>
      some ({ state with
        retired := if cfg.registers e then e :: state.retired else state.retired }.goes f
          (.retire cur rest))
  | .clear_flag => some ((state.set_flag f false).goes f .unlock)
  | .unlock => some (state.goes f .outside)

def State.wait_step (state : State) : Option State :=
  match state.waiter with
  | .outside | .returned => none
  | .size_hint recheck lane total =>
      if lane < kNumLanes then
        some { state with waiter := .size_hint recheck (lane + 1) (total + state.approx_size lane) }
      else if total = 0 then some { state with waiter := .any_flushing recheck 0 }
      else some { state with waiter := .size_hint 0 0 0 }
  | .any_flushing recheck i =>
      if i < cfg.num_flushers then
        if state.flushing_in_progress i then some { state with waiter := .size_hint 0 0 0 }
        else some { state with waiter := .any_flushing recheck (i + 1) }
      else if recheck = 4 then some { state with waiter := .returned }
      else some { state with waiter := .size_hint (recheck + 1) 0 0 }

/-- No push is under way when the wait begins, and none begins during it. -/
def State.step (state : State) : Action → Option State
  | .push producer op fp64 block =>
      match state.producers producer, state.waiter with
      | .idle, .outside =>
          let e : CommitEntry := ⟨state.pushed.length, op, fp64, block⟩
          some ({ state with
            pushes := state.pushes + 1
            pushed := e :: state.pushed }.at producer (.registered e))
      | _, _ => none
  | .producer producer => state.push_step producer
  | .drain f =>
      match state.drains f with
      | .outside => if f < cfg.num_flushers then some (state.goes f .locked) else none
      | _ => none
  | .drainer f take => state.drain_step cfg f take
  | .flush_and_wait =>
      match state.waiter with
      | .outside =>
          if state.pushes = 0 then some { state with waiter := .size_hint 0 0 0 } else none
      | _ => none
  | .waiter => state.wait_step cfg
  | .leave =>
      match state.waiter with
      | .returned => some { state with waiter := .outside }
      | _ => none

def machine : Machine State Action where
  initial := fun state => state = .empty
  step := State.step cfg

end

/-! ### Where the entries are -/

def Push.Busy : Push → Prop
  | .idle => False
  | _ => True

def Push.CountedIn (lane : Nat) : Push → Prop
  | .counted e _ => lane_of_fp64 e.fp64 = lane
  | _ => False

def Push.Holds (e : CommitEntry) : Push → Prop
  | .registered own | .counted own _ => own = e
  | _ => False

/-- The entries that a drain has dequeued and not retired. -/
@[simp]
def Drain.held : Drain → List CommitEntry
  | .load_hint cur | .dequeue cur _ | .fetch_sub cur _ | .fetch_and cur | .cold cur _ => cur.batch
  | .retire _ rest => rest
  | _ => []

@[simp]
def Drain.unsubtracted (lane : Nat) : Drain → Nat
  | .fetch_sub cur got => if cur.lane = lane then got else 0
  | _ => 0

/-- The lanes that a drain works on. -/
@[simp]
def Drain.works_on : Drain → List Nat
  | .lanes bits _ => bits
  | .load_hint cur | .dequeue cur _ | .fetch_sub cur _ | .fetch_and cur | .cold cur _
  | .retire cur _ => cur.lane :: cur.bits
  | _ => []

@[simp]
def Drain.flagged : Drain → Bool
  | .outside | .locked | .unlock => false
  | _ => true

/-- What has been applied of the batch that is being applied. -/
@[simp]
def Drain.Applied (applied : List CommitEntry) : Drain → Prop
  | .cold cur rest => ∀ e ∈ cur.batch, e ∈ rest ∨ e ∈ applied
  | .retire _ rest => ∀ e ∈ rest, e ∈ applied
  | _ => True

variable {cfg : Config} {state next : State}

def Settled (cfg : Config) (state : State) (e : CommitEntry) : Prop :=
  e ∈ state.applied ∧ (cfg.registers e = true → e ∈ state.retired)

/-- What the waiting thread knows: queues that it has found empty stay so, and
drains that it has found resting hold nothing. -/
def Waiter.Knows (state : State) : Waiter → Prop
  | .outside => True
  | .size_hint _ lane total => state.pushes = 0 ∧ (total = 0 → ∀ l < lane, state.q l = [])
  | .any_flushing _ i => state.pushes = 0 ∧ (∀ l < kNumLanes, state.q l = []) ∧
      ∀ f < i, (state.drains f).held = []
  | .returned => state.pushes = 0 ∧ (∀ l < kNumLanes, state.q l = []) ∧
      ∀ f, (state.drains f).held = []

structure Sound (cfg : Config) (state : State) : Prop where
  busy : Counts Push.Busy state.producers state.pushes
  size : ∀ l, ∃ counting, Counts (Push.CountedIn l) state.producers counting ∧
    state.approx_size l = (state.q l).length + counting +
      (state.drains (cfg.flusher_of_lane l)).unsubtracted l
  owned : ∀ f, ∀ l ∈ (state.drains f).works_on, cfg.flusher_of_lane l = f ∧ l < kNumLanes
  flagged : ∀ f, state.flushing_in_progress f = (state.drains f).flagged
  flushers : ∀ f, cfg.num_flushers ≤ f → state.drains f = .outside
  kept : ∀ e ∈ state.pushed, (∃ p, (state.producers p).Holds e) ∨
    (∃ l < kNumLanes, e ∈ state.q l) ∨ (∃ f, e ∈ (state.drains f).held) ∨ Settled cfg state e
  applied : ∀ f, (state.drains f).Applied state.applied
  knows : state.waiter.Knows state

theorem Sound.empty : Sound cfg .empty where
  busy := Counts.none_meets (fun _ busy => busy)
  size := fun _ => ⟨0, Counts.none_meets (fun _ counting => counting), rfl⟩
  owned := fun _ _ impossible => nomatch impossible
  flagged := fun _ => rfl
  flushers := fun _ _ => rfl
  kept := fun _ impossible => nomatch impossible
  applied := fun _ => trivial
  knows := trivial

theorem lane_of_fp64_lt (fp64 : Nat) : lane_of_fp64 fp64 < kNumLanes :=
  Nat.lt_of_le_of_lt Nat.and_le_right (by decide)

/-- The mask of a flusher has the lanes that `flusher_of_lane` gives it. -/
theorem owner_of_mask {f lane : Nat} (inside : cfg.in_lanes_mask f lane = true) :
    cfg.flusher_of_lane lane = f := by
  simp only [Config.in_lanes_mask, decide_eq_true_eq] at inside
  unfold Config.flusher_of_lane
  apply Nat.div_eq_of_lt_le
  · exact inside.1
  · rw [Nat.add_mul, Nat.one_mul]
    exact inside.2

/-- A step of a drain, by what it does to the entries and counters. -/
theorem Sound.drain {f : Nat} {stage : Drain} (sound : Sound cfg state)
    (drains : next.drains = Function.update state.drains f stage)
    (producers : next.producers = state.producers) (pushes : next.pushes = state.pushes)
    (pushed : next.pushed = state.pushed) (waiter : next.waiter = state.waiter)
    (inside : f < cfg.num_flushers)
    (size : ∀ l, cfg.flusher_of_lane l = f → ∀ counting,
      state.approx_size l = (state.q l).length + counting + (state.drains f).unsubtracted l →
      next.approx_size l = (next.q l).length + counting + stage.unsubtracted l)
    (elsewhere : ∀ l, cfg.flusher_of_lane l ≠ f →
      next.approx_size l = state.approx_size l ∧ next.q l = state.q l)
    (owned : ∀ l ∈ stage.works_on, cfg.flusher_of_lane l = f ∧ l < kNumLanes)
    (flagged : next.flushing_in_progress =
      Function.update state.flushing_in_progress f stage.flagged)
    (queued : ∀ l < kNumLanes, ∀ e ∈ state.q l, e ∈ next.q l ∨ e ∈ stage.held)
    (held : ∀ e ∈ (state.drains f).held, e ∈ stage.held ∨ Settled cfg next e)
    (applied : stage.Applied next.applied)
    (more_applied : ∀ e ∈ state.applied, e ∈ next.applied)
    (more_retired : ∀ e ∈ state.retired, e ∈ next.retired)
    (stays_empty : ∀ l, state.q l = [] → next.q l = [])
    (stays_rested : (∀ l < kNumLanes, state.q l = []) → (state.drains f).held = [] →
      stage.held = []) :
    Sound cfg next := by
  have at_f : next.drains f = stage := by
    rw [drains, Function.update_self]
  have at_other : ∀ g, g ≠ f → next.drains g = state.drains g := by
    intro g different
    rw [drains, Function.update_of_ne different]
  have rested : ∀ g, (∀ l < kNumLanes, state.q l = []) → (state.drains g).held = [] →
      (next.drains g).held = [] := by
    intro g empty rests
    by_cases here : g = f
    · rw [here] at rests ⊢
      rw [at_f]
      exact stays_rested empty rests
    · rw [at_other g here]
      exact rests
  constructor
  · rw [producers, pushes]
    exact sound.busy
  · intro l
    obtain ⟨counting, counts, total⟩ := sound.size l
    use counting
    constructor
    · rw [producers]
      exact counts
    · by_cases here : cfg.flusher_of_lane l = f
      · rw [here] at total ⊢
        rw [at_f]
        exact size l here counting total
      · rw [at_other _ here, (elsewhere l here).1, (elsewhere l here).2]
        exact total
  · intro g l works
    by_cases here : g = f
    · rw [here, at_f] at works
      rw [here]
      exact owned l works
    · rw [at_other g here] at works
      exact sound.owned g l works
  · intro g
    rw [flagged]
    by_cases here : g = f
    · rw [here, Function.update_self, at_f]
    · rw [Function.update_of_ne here, at_other g here]
      exact sound.flagged g
  · intro g beyond
    rw [at_other g (by omega)]
    exact sound.flushers g beyond
  · intro e member
    rw [pushed] at member
    rcases sound.kept e member with pushing | ⟨l, below, waiting⟩ | ⟨g, holding⟩ | settled
    · left
      rw [producers]
      exact pushing
    · rcases queued l below e waiting with still | taken
      · exact .inr (.inl ⟨l, below, still⟩)
      · exact .inr (.inr (.inl ⟨f, by rw [at_f]; exact taken⟩))
    · by_cases here : g = f
      · rw [here] at holding
        rcases held e holding with still | settled
        · exact .inr (.inr (.inl ⟨f, by rw [at_f]; exact still⟩))
        · exact .inr (.inr (.inr settled))
      · exact .inr (.inr (.inl ⟨g, by rw [at_other g here]; exact holding⟩))
    · exact .inr (.inr (.inr ⟨more_applied e settled.1,
        fun registered => more_retired e (settled.2 registered)⟩))
  · intro g
    by_cases here : g = f
    · rw [here, at_f]
      exact applied
    · rw [at_other g here]
      have before := sound.applied g
      revert before
      cases state.drains g with
      | cold cur rest =>
          exact fun before e member => (before e member).imp_right (more_applied e)
      | retire cur rest => exact fun before e member => more_applied e (before e member)
      | _ => exact id
  · have knows := sound.knows
    rw [waiter]
    revert knows
    cases state.waiter with
    | outside => exact id
    | size_hint recheck lane total =>
        rintro ⟨quiet, empty⟩
        exact ⟨pushes.trans quiet, fun none l before => stays_empty l (empty none l before)⟩
    | any_flushing recheck i =>
        rintro ⟨quiet, empty, resting⟩
        refine ⟨pushes.trans quiet, fun l below => stays_empty l (empty l below), ?_⟩
        exact fun g before => rested g empty (resting g before)
    | returned =>
        rintro ⟨quiet, empty, resting⟩
        refine ⟨pushes.trans quiet, fun l below => stays_empty l (empty l below), ?_⟩
        exact fun g => rested g empty (resting g)

theorem Sound.flag_stays {f : Nat} {stage : Drain} (sound : Sound cfg state)
    (flagged : stage.flagged = (state.drains f).flagged) :
    state.flushing_in_progress = Function.update state.flushing_in_progress f stage.flagged := by
  rw [flagged, ← sound.flagged f, Function.update_eq_self]

/-- A stage that leaves the entries and counters as they are. -/
theorem Sound.passes {f : Nat} {stage : Drain} (sound : Sound cfg state)
    (inside : f < cfg.num_flushers)
    (next_eq : next = ({ state with nonempty := next.nonempty }).goes f stage)
    (unsubtracted : ∀ l, (state.drains f).unsubtracted l = 0 ∧ stage.unsubtracted l = 0)
    (owned : ∀ l ∈ stage.works_on, cfg.flusher_of_lane l = f ∧ l < kNumLanes)
    (flagged : stage.flagged = (state.drains f).flagged)
    (held : ∀ e ∈ (state.drains f).held, e ∈ stage.held ∨ Settled cfg state e)
    (applied : stage.Applied state.applied)
    (rested : (state.drains f).held = [] → stage.held = []) : Sound cfg next := by
  rw [next_eq]
  refine sound.drain rfl rfl rfl rfl rfl inside ?_ (fun _ _ => ⟨rfl, rfl⟩) owned ?_
    (fun _ _ _ member => .inl member) held applied (fun _ member => member)
    (fun _ member => member) (fun _ empty => empty) (fun _ rests => rested rests)
  · intro l _ counting total
    rw [(unsubtracted l).1] at total
    rw [(unsubtracted l).2]
    exact total
  · exact sound.flag_stays flagged

theorem masked_lanes {f l : Nat} (member : l ∈ (List.range kNumLanes).filter (fun lane =>
      state.nonempty lane && cfg.in_lanes_mask f lane)) :
    cfg.flusher_of_lane l = f ∧ l < kNumLanes := by
  rw [List.mem_filter, List.mem_range, Bool.and_eq_true] at member
  exact ⟨owner_of_mask member.2.2, member.1⟩

theorem Sound.drain_step {f take : Nat} (sound : Sound cfg state)
    (stepped : state.drain_step cfg f take = some next) : Sound cfg next := by
  have inside : f < cfg.num_flushers := by
    by_contra beyond
    have rests := sound.flushers f (Nat.le_of_not_lt beyond)
    simp [State.drain_step, rests] at stepped
  have owned := sound.owned f
  have applied := sound.applied f
  unfold State.drain_step at stepped
  cases stage : state.drains f with
  | outside =>
      rw [stage] at stepped
      cases stepped
  | locked =>
      rw [stage] at stepped
      cases stepped
      refine sound.drain rfl rfl rfl rfl rfl inside ?_ ?_ ?_ rfl ?_ ?_ ?_ ?_ ?_ ?_ ?_ <;>
        simp +contextual [stage, State.goes, State.set_flag]
  | read_mask =>
      rw [stage] at stepped
      dsimp only at stepped
      split at stepped
      · cases stepped
        apply sound.passes inside rfl <;> simp [stage]
      · cases stepped
        apply sound.passes inside rfl
        · simp [stage]
        · exact fun l member => masked_lanes member
        · simp [stage]
        · simp [stage]
        · trivial
        · simp [stage]
  | lanes bits round_total =>
      rw [stage] at stepped owned
      cases bits with
      | nil =>
          dsimp only at stepped
          split at stepped <;> cases stepped <;> apply sound.passes inside rfl <;> simp [stage]
      | cons lane bits =>
          cases stepped
          apply sound.passes inside rfl <;> simp [stage]
          simpa using owned
  | load_hint cur =>
      rw [stage] at stepped owned
      cases stepped
      apply sound.passes inside rfl <;> simp +contextual [stage]
      simpa using owned
  | dequeue cur hint =>
      rw [stage] at stepped owned
      dsimp only at stepped
      have here := owned cur.lane List.mem_cons_self
      split at stepped
      · split at stepped <;> cases stepped
        · rename_i drained
          apply sound.passes inside rfl <;> simp_all
        · apply sound.passes inside rfl <;> simp +contextual [stage]
          simpa using owned
      · rename_i some_got
        cases stepped
        refine sound.drain rfl rfl rfl rfl rfl inside ?_ ?_ owned ?_ ?_ ?_ trivial
          (fun _ member => member) (fun _ member => member) ?_ ?_
        · intro l _ counting total
          rw [stage] at total
          simp only [Drain.unsubtracted, State.goes] at total ⊢
          by_cases same : cur.lane = l
          · rw [← same, Function.update_self, List.length_drop, if_pos rfl, same]
            rw [same] at some_got
            omega
          · rw [Function.update_of_ne (Ne.symm same), if_neg same]
            exact total
        · intro l different
          constructor
          · rfl
          · apply Function.update_of_ne
            rintro rfl
            exact different here.1
        · apply sound.flag_stays
          rw [stage]
          rfl
        · intro l _ e member
          by_cases same : l = cur.lane
          · rw [same] at member ⊢
            simp only [State.goes, Function.update_self, Drain.held]
            rw [← List.take_append_drop _ (state.q cur.lane), List.mem_append] at member
            rcases member with taken | left_over
            · exact .inr (List.mem_append_right _ taken)
            · exact .inl left_over
          · left
            simp only [State.goes]
            rw [Function.update_of_ne same]
            exact member
        · intro e member
          rw [stage] at member
          exact .inl (List.mem_append_left _ member)
        · intro l empty
          simp only [State.goes]
          by_cases same : l = cur.lane
          · rw [same, Function.update_self, ← same, empty, List.drop_nil]
          · rw [Function.update_of_ne same]
            exact empty
        · intro empty
          rw [empty cur.lane here.2] at some_got
          simp at some_got
  | fetch_sub cur got =>
      rw [stage] at stepped owned
      have here := owned cur.lane List.mem_cons_self
      cases stepped
      refine sound.drain rfl rfl rfl rfl rfl inside ?_ ?_ ?_ ?_ (fun _ _ _ member => .inl member)
        ?_ ?_ (fun _ member => member) (fun _ member => member) (fun _ empty => empty) ?_
      · intro l _ counting total
        rw [stage] at total
        have nothing : Drain.unsubtracted l
            (if state.approx_size cur.lane = got then .fetch_and cur else .load_hint cur) = 0 := by
          split <;> rfl
        rw [nothing]
        simp only [Drain.unsubtracted, State.goes] at total ⊢
        by_cases same : cur.lane = l
        · rw [if_pos same] at total
          rw [same, Function.update_self]
          omega
        · rw [if_neg same] at total
          rw [Function.update_of_ne (Ne.symm same)]
          exact total
      · intro l different
        constructor
        · apply Function.update_of_ne
          rintro rfl
          exact different here.1
        · rfl
      · split <;> exact owned
      · apply sound.flag_stays
        rw [stage]
        split <;> rfl
      · rw [stage]
        split <;> exact fun e member => .inl member
      · split <;> trivial
      · rw [stage]
        split <;> exact fun _ rested => rested
  | fetch_and cur =>
      rw [stage] at stepped owned
      cases stepped
      apply sound.passes inside rfl <;> simp +contextual [stage]
      simpa using owned
  | cold cur rest =>
      rw [stage] at stepped owned applied
      cases rest with
      | nil =>
          cases stepped
          apply sound.passes inside rfl <;> simp +contextual [stage]
          · simpa using owned
          · simpa using applied
      | cons e rest =>
          cases stepped
          refine sound.drain rfl rfl rfl rfl rfl inside ?_ (fun _ _ => ⟨rfl, rfl⟩) owned ?_
            (fun _ _ _ member => .inl member) ?_ ?_ ?_ (fun _ member => member)
            (fun _ empty => empty) ?_
          · simp [stage, State.goes]
          · apply sound.flag_stays
            rw [stage]
            rfl
          · simp +contextual [stage]
          · intro own member
            rcases applied own member with first | done
            · rcases List.mem_cons.mp first with same | later
              · exact .inr (List.mem_cons.mpr (.inl same))
              · exact .inl later
            · exact .inr (List.mem_cons_of_mem _ done)
          · exact fun own member => List.mem_cons_of_mem _ member
          · simp [stage]
  | retire cur rest =>
      rw [stage] at stepped owned applied
      cases rest with
      | nil =>
          cases stepped
          apply sound.passes inside rfl <;> simp +contextual [stage]
          exact fun l member => owned l (List.mem_cons_of_mem _ member)
      | cons e rest =>
          cases stepped
          refine sound.drain rfl rfl rfl rfl rfl inside ?_ (fun _ _ => ⟨rfl, rfl⟩) owned ?_
            (fun _ _ _ member => .inl member) ?_ ?_ (fun _ member => member) ?_
            (fun _ empty => empty) ?_
          · simp [stage, State.goes]
          · apply sound.flag_stays
            rw [stage]
            rfl
          · intro own member
            rw [stage] at member
            rcases List.mem_cons.mp member with same | later
            · right
              constructor
              · exact applied own member
              · intro registered
                rw [same] at registered ⊢
                simp only [State.goes, if_pos registered]
                exact List.mem_cons_self
            · exact .inl later
          · exact fun own member => applied own (List.mem_cons_of_mem _ member)
          · intro own member
            simp only [State.goes]
            split
            · exact List.mem_cons_of_mem _ member
            · exact member
          · simp [stage]
  | clear_flag =>
      rw [stage] at stepped
      cases stepped
      refine sound.drain rfl rfl rfl rfl rfl inside ?_ ?_ ?_ rfl ?_ ?_ ?_ ?_ ?_ ?_ ?_ <;>
        simp +contextual [stage, State.goes, State.set_flag]
  | unlock =>
      rw [stage] at stepped
      cases stepped
      apply sound.passes inside rfl <;> simp [stage]

/-! ### Pushes -/

/-- No wait has begun while a push is under way. -/
theorem Sound.not_waiting {p : Nat} (sound : Sound cfg state)
    (running : (state.producers p).Busy) : state.waiter = .outside := by
  have some_push := sound.busy.pos running
  have knows := sound.knows
  revert knows
  cases state.waiter with
  | outside => exact fun _ => rfl
  | size_hint recheck lane total => exact fun knows => absurd knows.1 (by omega)
  | any_flushing recheck i => exact fun knows => absurd knows.1 (by omega)
  | returned => exact fun knows => absurd knows.1 (by omega)

/-- A step of a push, by what it does to the entries and counters. -/
theorem Sound.producer {p : Nat} {stage : Push} (sound : Sound cfg state)
    (producers : next.producers = Function.update state.producers p stage)
    (drains : next.drains = state.drains)
    (flags : next.flushing_in_progress = state.flushing_in_progress)
    (all_applied : next.applied = state.applied) (all_retired : next.retired = state.retired)
    (not_waiting : next.waiter = .outside)
    (busy : Counts Push.Busy (Function.update state.producers p stage) next.pushes)
    (size : ∀ l, ∀ counting, Counts (Push.CountedIn l) state.producers counting →
      ∃ still, Counts (Push.CountedIn l) (Function.update state.producers p stage) still ∧
        next.approx_size l + (state.q l).length + counting =
          state.approx_size l + (next.q l).length + still)
    (pushed : ∀ e ∈ next.pushed, e ∈ state.pushed ∨ stage.Holds e)
    (queued : ∀ l, ∀ e ∈ state.q l, e ∈ next.q l)
    (holding : ∀ e, (state.producers p).Holds e →
      stage.Holds e ∨ ∃ l < kNumLanes, e ∈ next.q l) : Sound cfg next := by
  have at_p : next.producers p = stage := by
    rw [producers, Function.update_self]
  constructor
  · rw [producers]
    exact busy
  · intro l
    obtain ⟨counting, counts, total⟩ := sound.size l
    obtain ⟨still, counts, change⟩ := size l counting counts
    use still
    constructor
    · rw [producers]
      exact counts
    · rw [drains]
      omega
  · rw [drains]
    exact sound.owned
  · rw [drains, flags]
    exact sound.flagged
  · rw [drains]
    exact sound.flushers
  · intro e member
    rw [drains]
    rcases pushed e member with before | holds
    · rcases sound.kept e before with ⟨q, holds⟩ | ⟨l, below, waiting⟩ | held | settled
      · by_cases same : q = p
        · rw [same] at holds
          rcases holding e holds with still | waits
          · exact .inl ⟨p, by rw [at_p]; exact still⟩
          · exact .inr (.inl waits)
        · left
          use q
          rw [producers, Function.update_of_ne same]
          exact holds
      · exact .inr (.inl ⟨l, below, queued l e waiting⟩)
      · exact .inr (.inr (.inl held))
      · right; right; right
        constructor
        · rw [all_applied]
          exact settled.1
        · rw [all_retired]
          exact settled.2
    · exact .inl ⟨p, by rw [at_p]; exact holds⟩
  · rw [drains, all_applied]
    exact sound.applied
  · rw [not_waiting]
    trivial

theorem Sound.push {p fp64 : Nat} {op : Op} {block : Option Nat} (sound : Sound cfg state)
    (stepped : state.step cfg (.push p op fp64 block) = some next) : Sound cfg next := by
  simp only [State.step] at stepped
  split at stepped
  · rename_i idle not_waiting
    cases stepped
    refine sound.producer rfl rfl rfl rfl rfl not_waiting ?_ ?_ ?_ (fun _ _ member => member) ?_
    · apply sound.busy.enter
      · rw [idle]
        exact fun busy => busy
      · trivial
    · intro l counting counts
      use counting
      constructor
      · apply counts.keep
        rw [idle]
        exact Iff.rfl
      · rfl
    · intro e member
      rcases List.mem_cons.mp member with same | before
      · exact .inr same.symm
      · exact .inl before
    · intro e holds
      rw [idle] at holds
      exact holds.elim
  · cases stepped

theorem Sound.push_step {p : Nat} (sound : Sound cfg state)
    (stepped : state.push_step p = some next) : Sound cfg next := by
  unfold State.push_step at stepped
  cases stage : state.producers p with
  | idle =>
      rw [stage] at stepped
      cases stepped
  | registered e =>
      rw [stage] at stepped
      cases stepped
      have running : (state.producers p).Busy := by
        rw [stage]
        trivial
      refine sound.producer rfl rfl rfl rfl rfl (sound.not_waiting running) ?_ ?_
        (fun _ member => .inl member) (fun _ _ member => member) ?_
      · apply sound.busy.keep
        rw [stage]
        exact Iff.rfl
      · intro l counting counts
        by_cases here : lane_of_fp64 e.fp64 = l
        · use counting + 1
          constructor
          · apply counts.enter
            · rw [stage]
              exact fun counted => counted
            · exact here
          · simp only [State.at]
            rw [here, Function.update_self]
            omega
        · use counting
          constructor
          · apply counts.keep
            rw [stage]
            exact ⟨here, False.elim⟩
          · simp only [State.at]
            rw [Function.update_of_ne (Ne.symm here)]
      · intro own holds
        rw [stage] at holds
        exact .inl holds
  | counted e before =>
      rw [stage] at stepped
      cases stepped
      have running : (state.producers p).Busy := by
        rw [stage]
        trivial
      refine sound.producer rfl rfl rfl rfl rfl (sound.not_waiting running) ?_ ?_
        (fun _ member => .inl member) ?_ ?_
      · apply sound.busy.keep
        rw [stage]
        exact Iff.rfl
      · intro l counting counts
        by_cases here : lane_of_fp64 e.fp64 = l
        · have present : (state.producers p).CountedIn l := by
            rw [stage]
            exact here
          have positive := counts.pos present
          obtain ⟨still, rfl⟩ : ∃ still, counting = still + 1 := ⟨counting - 1, by omega⟩
          use still
          constructor
          · exact counts.leave present (fun counted => counted)
          · simp only [State.at]
            rw [here, Function.update_self, List.length_append, List.length_singleton]
            omega
        · use counting
          constructor
          · apply counts.keep
            rw [stage]
            exact ⟨False.elim, here⟩
          · simp only [State.at]
            rw [Function.update_of_ne (Ne.symm here)]
      · intro l own member
        simp only [State.at]
        by_cases here : l = lane_of_fp64 e.fp64
        · rw [here] at member ⊢
          rw [Function.update_self]
          exact List.mem_append_left _ member
        · rw [Function.update_of_ne here]
          exact member
      · intro own holds
        rw [stage] at holds
        right
        use lane_of_fp64 e.fp64
        constructor
        · exact lane_of_fp64_lt e.fp64
        · simp only [State.at]
          rw [Function.update_self, ← show e = own from holds]
          exact List.mem_append_right _ List.mem_cons_self
  | enqueued lane before =>
      rw [stage] at stepped
      cases stepped
      have running : (state.producers p).Busy := by
        rw [stage]
        trivial
      have positive := sound.busy.pos running
      refine sound.producer rfl rfl rfl rfl rfl (sound.not_waiting running) ?_ ?_
        (fun _ member => .inl member) (fun _ _ member => member) ?_
      · have busy := sound.busy
        obtain ⟨others, one_more⟩ : ∃ others, state.pushes = others + 1 :=
          ⟨state.pushes - 1, by omega⟩
        rw [one_more] at busy
        simp only [State.at]
        rw [one_more]
        exact busy.leave running (fun idle => idle)
      · intro l counting counts
        use counting
        constructor
        · apply counts.keep
          rw [stage]
          exact Iff.rfl
        · rfl
      · intro own holds
        rw [stage] at holds
        exact holds.elim

/-! ### The wait -/

/-- A step of the waiting thread, by what it then knows. -/
theorem Sound.waits {stage : Waiter} (sound : Sound cfg state) (knows : stage.Knows state) :
    Sound cfg { state with waiter := stage } where
  busy := sound.busy
  size := sound.size
  owned := sound.owned
  flagged := sound.flagged
  flushers := sound.flushers
  kept := sound.kept
  applied := sound.applied
  knows := by
    revert knows
    cases stage <;> exact id

/-- A lane whose counter reads zero has an empty queue. -/
theorem Sound.counter_zero {l : Nat} (sound : Sound cfg state) (zero : state.approx_size l = 0) :
    state.q l = [] := by
  obtain ⟨counting, _, total⟩ := sound.size l
  apply List.eq_nil_of_length_eq_zero
  omega

/-- A flusher whose flag reads clear has no entry in hand. -/
theorem Sound.flag_clear {f : Nat} (sound : Sound cfg state)
    (clear : state.flushing_in_progress f = false) : (state.drains f).held = [] := by
  rw [sound.flagged f] at clear
  revert clear
  cases state.drains f <;> simp

theorem Sound.wait_step (sound : Sound cfg state) (stepped : state.wait_step cfg = some next) :
    Sound cfg next := by
  have knows := sound.knows
  unfold State.wait_step at stepped
  cases stage : state.waiter with
  | outside =>
      rw [stage] at stepped
      cases stepped
  | returned =>
      rw [stage] at stepped
      cases stepped
  | size_hint recheck lane total =>
      rw [stage] at stepped knows
      obtain ⟨quiet, empty⟩ := knows
      dsimp only at stepped
      split at stepped
      · cases stepped
        apply sound.waits
        constructor
        · exact quiet
        · intro zero l before
          rcases Nat.lt_succ_iff_lt_or_eq.mp before with earlier | same
          · exact empty (by omega) l earlier
          · apply sound.counter_zero
            rw [same]
            omega
      · rename_i beyond
        split at stepped <;> cases stepped
        · rename_i zero
          apply sound.waits
          exact ⟨quiet, fun l below => empty zero l (by omega), by simp⟩
        · apply sound.waits
          exact ⟨quiet, by simp⟩
  | any_flushing recheck i =>
      rw [stage] at stepped knows
      obtain ⟨quiet, empty, resting⟩ := knows
      dsimp only at stepped
      split at stepped
      · split at stepped <;> cases stepped
        · apply sound.waits
          exact ⟨quiet, by simp⟩
        · rename_i clear
          apply sound.waits
          refine ⟨quiet, empty, ?_⟩
          intro f before
          rcases Nat.lt_succ_iff_lt_or_eq.mp before with earlier | same
          · exact resting f earlier
          · rw [same]
            exact sound.flag_clear (by simpa using clear)
      · rename_i beyond
        split at stepped <;> cases stepped <;> apply sound.waits
        · refine ⟨quiet, empty, ?_⟩
          intro f
          by_cases flusher : f < cfg.num_flushers
          · exact resting f (by omega)
          · rw [sound.flushers f (by omega)]
            rfl
        · exact ⟨quiet, by simp⟩

theorem Sound.step {action : Action} (sound : Sound cfg state)
    (stepped : state.step cfg action = some next) : Sound cfg next := by
  cases action with
  | push p op fp64 block => exact sound.push stepped
  | producer p => exact sound.push_step stepped
  | drain f =>
      simp only [State.step] at stepped
      split at stepped
      · rename_i outside
        split at stepped <;> cases stepped
        rename_i inside
        apply sound.passes inside rfl <;> simp [outside]
      · cases stepped
  | drainer f take => exact sound.drain_step stepped
  | flush_and_wait =>
      simp only [State.step] at stepped
      split at stepped
      · split at stepped <;> cases stepped
        rename_i quiet
        apply sound.waits
        exact ⟨quiet, by simp⟩
      · cases stepped
  | waiter => exact sound.wait_step stepped
  | leave =>
      simp only [State.step] at stepped
      split at stepped <;> cases stepped
      apply sound.waits
      trivial

theorem sound_of_reachable (reached : (machine cfg).Reachable state) : Sound cfg state := by
  apply reached.invariant
  · rintro _ rfl
    exact Sound.empty
  · intro state action after sound _ stepped
    exact sound.step stepped

/-- When `flush_and_wait` returns, what had been pushed is in the cold tier and
not pending. -/
theorem flush_and_wait_complete (reached : (machine cfg).Reachable state)
    (returned : state.waiter = .returned) : ∀ e ∈ state.pushed, Settled cfg state e := by
  have sound := sound_of_reachable reached
  have knows := sound.knows
  rw [returned] at knows
  obtain ⟨quiet, empty, resting⟩ := knows
  intro e member
  rcases sound.kept e member with ⟨p, holds⟩ | ⟨l, below, waiting⟩ | ⟨f, held⟩ | settled
  · have busy : (state.producers p).Busy := by
      revert holds
      cases state.producers p <;> simp [Push.Holds, Push.Busy]
    have some_push := sound.busy.pos busy
    omega
  · rw [empty l below] at waiting
    cases waiting
  · rw [resting f] at held
    cases held
  · exact settled

/-- The first look at the counters comes between the dequeue and the write to
the cold tier: the flag sends the waiting thread back. -/
def one_push : List Action :=
  [.push 0 .kPut 5 (some 2), .producer 0, .producer 0, .producer 0, .flush_and_wait, .drain 0] ++
    List.replicate 6 (.drainer 0 1) ++ List.replicate 10 .waiter ++
    List.replicate 11 (.drainer 0 1) ++ List.replicate 55 .waiter

theorem flush_and_wait_complete_one_push : ∃ state, (machine ⟨1, true⟩).Reachable state ∧
    state.waiter = .returned ∧ ∀ e ∈ state.pushed, Settled ⟨1, true⟩ state e := by
  have possible : ((machine ⟨1, true⟩).run .empty one_push).map (fun state =>
      match state.waiter with
      | .returned => true
      | _ => false) = some true := by decide +kernel
  obtain ⟨state, ran, ended⟩ := Option.map_eq_some_iff.mp possible
  have reached : (machine ⟨1, true⟩).Reachable state := Machine.Reachable.run (.start rfl) ran
  have returned : state.waiter = .returned := by
    cases stage : state.waiter <;> simp_all
  exact ⟨state, reached, returned, flush_and_wait_complete reached returned⟩

end Hiom.CommitBuffer.Wait
