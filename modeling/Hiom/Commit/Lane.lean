import Hiom.Lib.Machine
import Hiom.Lib.Count

/-!
One lane of the commit buffer. Producers count an entry in `approx_size`,
enqueue it, and set the lane's bit of `nonempty_mask` if they counted from
zero; the consumer that owns the lane looks at the bit only. Every atomic
operation of either side is a step.
-/

namespace Hiom.CommitBuffer

inductive Push (Entry : Type) where
  | idle
  | counted (entry : Entry) (before : Nat)
  | enqueued (before : Nat)

/-- Where the consumer is within `drain_to_empty_and_apply_locked`. The middle
four stages are those of `try_drain_lane`. -/
inductive Drain where
  | outside
  | read_mask
  | load_hint
  | dequeue (hint : Nat)
  | fetch_sub (got : Nat)
  | fetch_and

def kPerCall : Nat := 1024

/-- `nonempty` is the lane's bit of the mask, `applied` what `apply_batch` was
given so far. -/
structure Lane (Entry : Type) where
  approx_size : Nat
  q : List Entry
  nonempty : Bool
  producers : Nat → Push Entry
  consumer : Drain
  batch : List Entry
  applied : List Entry

inductive Action (Entry : Type) where
  | push (producer : Nat) (entry : Entry)
  | producer (producer : Nat)
  | drain
  | consumer

variable {Entry : Type}

def Lane.at (lane : Lane Entry) (producer : Nat) (stage : Push Entry) : Lane Entry :=
  { lane with producers := Function.update lane.producers producer stage }

def Lane.push_step (lane : Lane Entry) (producer : Nat) : Option (Lane Entry) :=
  match lane.producers producer with
  | .idle => none
  | .counted entry before =>
      some ({ lane with q := lane.q ++ [entry] }.at producer (.enqueued before))
  | .enqueued before =>
      -- test-and-set: only the push that counted from zero touches the mask
      some ({ lane with nonempty := lane.nonempty || before == 0 }.at producer .idle)

def Lane.drain_step (lane : Lane Entry) : Option (Lane Entry) :=
  match lane.consumer with
  | .outside => none
  | .read_mask =>
      some { lane with consumer := if lane.nonempty then .load_hint else .outside }
  | .load_hint => some { lane with consumer := .dequeue lane.approx_size }
  | .dequeue hint =>
      let got := min (min kPerCall (hint + 64)) lane.q.length
      if got = 0 then
        if lane.batch.isEmpty then some { lane with consumer := .outside }
        else
          some { lane with
            consumer := .read_mask
            applied := lane.applied ++ lane.batch
            batch := [] }
      else
        some { lane with
          consumer := .fetch_sub got
          q := lane.q.drop got
          batch := lane.batch ++ lane.q.take got }
  | .fetch_sub got =>
      some { lane with
        approx_size := lane.approx_size - got
        consumer := if lane.approx_size = got then .fetch_and else .load_hint }
  | .fetch_and => some { lane with nonempty := false, consumer := .load_hint }

def Lane.step (lane : Lane Entry) : Action Entry → Option (Lane Entry)
  | .push producer entry =>
      match lane.producers producer with
      | .idle =>
          some ({ lane with approx_size := lane.approx_size + 1 }.at producer
            (.counted entry lane.approx_size))
      | _ => none
  | .producer producer => lane.push_step producer
  | .drain =>
      match lane.consumer with
      | .outside => some { lane with consumer := .read_mask }
      | _ => none
  | .consumer => lane.drain_step

def Lane.empty : Lane Entry where
  approx_size := 0
  q := []
  nonempty := false
  producers := fun _ => .idle
  consumer := .outside
  batch := []
  applied := []

def lane_machine (Entry : Type) : Machine (Lane Entry) (Action Entry) where
  initial := fun lane => lane = Lane.empty
  step := Lane.step

/-! ### The lane's bit -/

def Push.Counting : Push Entry → Prop
  | .counted _ _ => True
  | _ => False

def Push.SawZero : Push Entry → Prop
  | .counted _ before | .enqueued before => before = 0
  | .idle => False

def Drain.unsubtracted : Drain → Nat
  | .fetch_sub got => got
  | _ => 0

def Drain.Resting : Drain → Prop
  | .outside | .read_mask => True
  | _ => False

/-- The bit is set, or a push on its way will set it, or there is no need. -/
def Lane.Announced (lane : Lane Entry) : Prop :=
  lane.approx_size = 0 ∨ lane.nonempty = true ∨ ∃ producer, (lane.producers producer).SawZero

/-- When a dequeue comes back empty and pushes are still under way, one of them
counted from zero or the bit is set. -/
def LeavesAnnounced (lane : Lane Entry) : Action Entry → Prop
  | .consumer =>
      match lane.consumer with
      | .dequeue _ => lane.q = [] → lane.Announced
      | _ => True
  | _ => True

structure Accounted (lane : Lane Entry) : Prop where
  size : ∃ counting, Counts Push.Counting lane.producers counting ∧
    lane.approx_size = lane.q.length + counting + lane.consumer.unsubtracted
  announced : lane.consumer.Resting → lane.Announced

/-- No entry waits behind a clear bit once every push has returned. -/
def NotStranded (lane : Lane Entry) : Prop :=
  (∀ producer, lane.producers producer = .idle) → lane.consumer = .outside →
    lane.q ≠ [] → lane.nonempty = true

variable {lane next : Lane Entry}

theorem empty_accounted : Accounted (Lane.empty : Lane Entry) where
  size := ⟨0, Counts.none_meets (fun _ counting => counting), rfl⟩
  announced := fun _ => .inl rfl

theorem push_accounted {producer : Nat} {entry : Entry} (accounted : Accounted lane)
    (stepped : lane.step (.push producer entry) = some next) : Accounted next := by
  obtain ⟨counting, counts, size⟩ := accounted.size
  simp only [Lane.step] at stepped
  split at stepped
  · rename_i idle
    cases stepped
    constructor
    · refine ⟨counting + 1, counts.enter (fun present => ?_) trivial, ?_⟩
      · rw [idle] at present
        exact present
      · simp only [Lane.at]
        omega
    · intro resting
      by_cases zero : lane.approx_size = 0
      · refine .inr (.inr ⟨producer, ?_⟩)
        simpa [Lane.at, Push.SawZero] using zero
      · rcases accounted.announced resting with none_left | set | ⟨other, saw⟩
        · exact absurd none_left zero
        · exact .inr (.inl set)
        · refine .inr (.inr ⟨other, ?_⟩)
          have different : other ≠ producer := by
            intro same
            rw [same, idle] at saw
            exact saw
          simpa [Lane.at, different] using saw
  · cases stepped

theorem push_step_accounted {producer : Nat} (accounted : Accounted lane)
    (stepped : lane.push_step producer = some next) : Accounted next := by
  obtain ⟨counting, counts, size⟩ := accounted.size
  simp only [Lane.push_step] at stepped
  split at stepped
  · cases stepped
  · rename_i entry before stage
    cases stepped
    have present : (lane.producers producer).Counting := by
      rw [stage]
      trivial
    have positive := counts.pos present
    obtain ⟨rest, rfl⟩ : ∃ rest, counting = rest + 1 := ⟨counting - 1, by omega⟩
    constructor
    · refine ⟨rest, counts.leave present (fun still => still), ?_⟩
      simp only [Lane.at, List.length_append, List.length_singleton]
      omega
    · intro resting
      rcases accounted.announced resting with none_left | set | ⟨other, saw⟩
      · exact .inl none_left
      · exact .inr (.inl set)
      · refine .inr (.inr ⟨other, ?_⟩)
        by_cases same : other = producer
        · subst same
          rw [stage] at saw
          simpa [Lane.at, Push.SawZero] using saw
        · simpa [Lane.at, same] using saw
  · rename_i before stage
    cases stepped
    constructor
    · refine ⟨counting, counts.keep ?_, size⟩
      rw [stage]
      exact Iff.rfl
    · intro resting
      rcases accounted.announced resting with none_left | set | ⟨other, saw⟩
      · exact .inl none_left
      · refine .inr (.inl ?_)
        simp [Lane.at, set]
      · by_cases same : other = producer
        · subst same
          rw [stage] at saw
          change before = 0 at saw
          refine .inr (.inl ?_)
          simp [Lane.at, saw]
        · refine .inr (.inr ⟨other, ?_⟩)
          simpa [Lane.at, same] using saw

theorem drain_step_accounted (accounted : Accounted lane)
    (leaves : LeavesAnnounced lane .consumer)
    (stepped : lane.drain_step = some next) : Accounted next := by
  obtain ⟨counting, counts, size⟩ := accounted.size
  have announced := accounted.announced
  simp only [LeavesAnnounced] at leaves
  simp only [Lane.drain_step] at stepped
  split at stepped <;> rename_i stage <;> rw [stage] at size announced leaves
  · cases stepped
  · cases stepped
    constructor
    · refine ⟨counting, counts, ?_⟩
      split <;> exact size
    · intro _
      exact announced trivial
  · cases stepped
    exact ⟨⟨counting, counts, size⟩, fun resting => absurd resting (fun busy => busy)⟩
  · rename_i hint
    split at stepped
    · rename_i nothing
      have empty : lane.q = [] := by
        apply List.eq_nil_of_length_eq_zero
        unfold kPerCall at nothing
        omega
      have quiet := leaves empty
      split at stepped <;> cases stepped
      · exact ⟨⟨counting, counts, size⟩, fun _ => quiet⟩
      · exact ⟨⟨counting, counts, size⟩, fun _ => quiet⟩
    · cases stepped
      refine ⟨⟨counting, counts, ?_⟩, fun resting => absurd resting (fun busy => busy)⟩
      simp only [Drain.unsubtracted, List.length_drop] at size ⊢
      omega
  · rename_i got
    cases stepped
    constructor
    · refine ⟨counting, counts, ?_⟩
      simp only [Drain.unsubtracted] at size
      dsimp only
      split <;> simp only [Drain.unsubtracted] <;> omega
    · split <;> exact fun resting => absurd resting (fun busy => busy)
  · cases stepped
    exact ⟨⟨counting, counts, size⟩, fun resting => absurd resting (fun busy => busy)⟩

theorem step_accounted {action : Action Entry} (accounted : Accounted lane)
    (leaves : LeavesAnnounced lane action) (stepped : lane.step action = some next) :
    Accounted next := by
  cases action with
  | push producer entry => exact push_accounted accounted stepped
  | producer producer => exact push_step_accounted accounted stepped
  | drain =>
      simp only [Lane.step] at stepped
      split at stepped
      · rename_i outside
        cases stepped
        obtain ⟨counting, counts, size⟩ := accounted.size
        rw [outside] at size
        refine ⟨⟨counting, counts, size⟩, fun _ => accounted.announced ?_⟩
        rw [outside]
        trivial
      · cases stepped
  | consumer => exact drain_step_accounted accounted leaves stepped

/-- As long as every empty dequeue leaves the lane announced. -/
theorem entries_not_stranded (reached : (lane_machine Entry).Reach LeavesAnnounced lane) :
    NotStranded lane := by
  have accounted : Accounted lane := by
    apply reached.invariant
    · rintro _ rfl
      exact empty_accounted
    · intro state action after accounted leaves stepped
      exact step_accounted accounted leaves stepped
  intro idle outside waiting
  obtain ⟨counting, counts, size⟩ := accounted.size
  have none_counting : counting = 0 := by
    apply counts.eq_zero
    intro producer present
    rw [idle] at present
    exact present
  have positive : 0 < lane.q.length := List.length_pos_iff.mpr waiting
  have resting : lane.consumer.Resting := by
    rw [outside]
    trivial
  rcases accounted.announced resting with none_left | set | ⟨producer, saw⟩
  · omega
  · exact set
  · rw [idle] at saw
    exact saw.elim

def passes (lane : Lane Entry) : Action Entry → Bool
  | .consumer => lane.approx_size == 0 || lane.nonempty
  | _ => true

theorem passes_leaves (lane : Lane Entry) (action : Action Entry)
    (passed : passes lane action = true) : LeavesAnnounced lane action := by
  cases action with
  | consumer =>
      simp only [passes, Bool.or_eq_true, beq_iff_eq] at passed
      simp only [LeavesAnnounced]
      split
      · intro _
        exact passed.imp_right .inl
      · trivial
  | push => trivial
  | producer => trivial
  | drain => trivial

def push_drain_push : List (Action Nat) :=
  [.push 0 7, .producer 0, .producer 0, .drain, .consumer, .consumer, .consumer, .consumer,
    .consumer, .consumer, .consumer, .consumer, .push 1 8, .producer 1, .producer 1]

theorem pushes_not_stranded :
    ∃ lane, (lane_machine Nat).run Lane.empty push_drain_push = some lane ∧ NotStranded lane := by
  have ran : (((lane_machine Nat).checked passes).run Lane.empty push_drain_push).isSome = true := by
    decide
  obtain ⟨lane, ran⟩ := Option.isSome_iff_exists.mp ran
  have reached : (lane_machine Nat).Reach LeavesAnnounced lane :=
    Machine.Reach.run_checked (.start rfl) passes_leaves ran
  exact ⟨lane, Machine.run_of_checked ran, entries_not_stranded reached⟩

/-- The consumer subtracts the first entry down to zero and is about to clear
the bit; a push that counted from zero sets it before that, and the push behind
it, which counted from one, never will. -/
def bit_lost : List (Action Nat) :=
  [.push 0 10, .producer 0, .producer 0, .drain, .consumer, .consumer, .consumer, .consumer,
    .push 1 11, .push 2 12, .producer 1, .producer 1, .consumer, .consumer, .consumer, .consumer,
    .consumer, .consumer, .consumer, .producer 2, .producer 2]

theorem entry_stranded :
    ∃ lane, (lane_machine Nat).run Lane.empty bit_lost = some lane ∧ lane.q = [12] ∧
      lane.nonempty = false ∧ ¬NotStranded lane := by
  have stranded : ∀ lane : Lane Nat, (∀ producer, lane.producers producer = .idle) →
      lane.consumer = .outside → lane.q = [12] → lane.nonempty = false → ¬NotStranded lane := by
    intro lane idle outside waiting clear not_stranded
    have set := not_stranded idle outside (by rw [waiting]; simp)
    rw [clear] at set
    cases set
  refine ⟨_, rfl, rfl, rfl, stranded _ (fun producer => ?_) rfl rfl rfl⟩
  rcases producer with _ | _ | _ | producer <;> rfl

end Hiom.CommitBuffer
