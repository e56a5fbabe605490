import Mathlib

/-!
Programs as trees of atomic instructions. One definition of an operation gives
its sequential meaning (`run`), every point at which it can be stopped
(`advance`) and the instruction it executes next, so a crash between two
stores and an interleaving with other threads speak of the same code.
-/

namespace Hiom

/-- Instruction `instr` answers with a value of `Reply instr`. -/
inductive Prog {Instr : Type} (Reply : Instr → Type) (α : Type) where
  | ret (value : α)
  | op (instr : Instr) (next : Reply instr → Prog Reply α)

namespace Prog

variable {Instr State α β γ : Type} {Reply : Instr → Type}

def bind : Prog Reply α → (α → Prog Reply β) → Prog Reply β
  | ret value, rest => rest value
  | op instr next, rest => op instr (fun reply => (next reply).bind rest)

instance : Monad (Prog Reply) where
  pure := ret
  bind := bind

def perform (instr : Instr) : Prog Reply (Reply instr) := op instr ret

@[simp] theorem pure_eq (value : α) : (pure value : Prog Reply α) = ret value := rfl

@[simp] theorem ret_bind (value : α) (rest : α → Prog Reply β) :
    (ret value >>= rest) = rest value := rfl

@[simp] theorem op_bind (instr : Instr) (next : Reply instr → Prog Reply α)
    (rest : α → Prog Reply β) :
    (op instr next >>= rest) = op instr (fun reply => next reply >>= rest) := rfl

@[simp] theorem perform_bind (instr : Instr) (rest : Reply instr → Prog Reply β) :
    (perform instr >>= rest) = op instr rest := rfl

abbrev Semantics (Reply : Instr → Type) (State : Type) :=
  (instr : Instr) → State → Reply instr × State

variable (sem : Semantics Reply State)

def run : Prog Reply α → State → α × State
  | ret value, state => (value, state)
  | op instr next, state => run (next (sem instr state).1) (sem instr state).2

@[simp] theorem run_ret (value : α) (state : State) :
    (ret value : Prog Reply α).run sem state = (value, state) := rfl

@[simp] theorem run_op (instr : Instr) (next : Reply instr → Prog Reply α) (state : State) :
    (op instr next).run sem state = (next (sem instr state).1).run sem (sem instr state).2 :=
  rfl

@[simp] theorem run_bind (prog : Prog Reply α) (rest : α → Prog Reply β) (state : State) :
    (prog >>= rest).run sem state =
      (rest (prog.run sem state).1).run sem (prog.run sem state).2 := by
  induction prog generalizing state with
  | ret value => rfl
  | op instr next ih => exact ih _ _

def advance : Prog Reply α → State → Option (Prog Reply α × State)
  | ret _, _ => none
  | op instr next, state => some (next (sem instr state).1, (sem instr state).2)

def next? : Prog Reply α → Option Instr
  | ret _ => none
  | op instr _ => some instr

/-- Every instruction that the program executes from `state`, run alone, meets
`ok` in the state in which it is executed. -/
def Guarded (ok : State → Instr → Prop) : Prog Reply α → State → Prop
  | ret _, _ => True
  | op instr next, state =>
      ok state instr ∧ (next (sem instr state).1).Guarded ok (sem instr state).2

variable {sem} {ok : State → Instr → Prop}

@[simp] theorem guarded_ret (value : α) (state : State) :
    (ret value : Prog Reply α).Guarded sem ok state := trivial

@[simp] theorem guarded_op (instr : Instr) (next : Reply instr → Prog Reply α)
    (state : State) :
    (op instr next).Guarded sem ok state ↔
      ok state instr ∧ (next (sem instr state).1).Guarded sem ok (sem instr state).2 :=
  Iff.rfl

theorem guarded_bind (prog : Prog Reply α) (rest : α → Prog Reply β) (state : State) :
    (prog >>= rest).Guarded sem ok state ↔
      prog.Guarded sem ok state ∧
        (rest (prog.run sem state).1).Guarded sem ok (prog.run sem state).2 := by
  induction prog generalizing state with
  | ret value => simp
  | op instr next ih =>
      simp only [op_bind, guarded_op, run_op, ih, and_assoc]

/-- What every permitted instruction preserves holds when a guarded program
returns. -/
theorem Guarded.run_preserves {motive : State → Prop}
    (step : ∀ state instr, motive state → ok state instr → motive (sem instr state).2)
    {prog : Prog Reply α} {state : State} (init : motive state)
    (guarded : prog.Guarded sem ok state) : motive (prog.run sem state).2 := by
  induction prog generalizing state with
  | ret value => exact init
  | op instr next ih => exact ih _ (step _ _ init guarded.1) guarded.2

/-- A guarded program stays guarded after each of its instructions. -/
theorem Guarded.advance {prog rest : Prog Reply α} {state after : State}
    (guarded : prog.Guarded sem ok state)
    (stepped : prog.advance sem state = some (rest, after)) :
    rest.Guarded sem ok after ∧ rest.run sem after = prog.run sem state := by
  cases prog with
  | ret value => cases stepped
  | op instr next =>
      cases stepped
      exact ⟨guarded.2, rfl⟩

def steps (sem : Semantics Reply State) : Prog Reply α → State → Nat
  | ret _, _ => 0
  | op instr next, state => steps sem (next (sem instr state).1) (sem instr state).2 + 1

/-- An instruction leaves the run as it was, and one step less of it. -/
theorem advance_run {prog rest : Prog Reply α} {state after : State}
    (stepped : prog.advance sem state = some (rest, after)) :
    rest.run sem after = prog.run sem state ∧ rest.steps sem after + 1 = prog.steps sem state := by
  cases prog with
  | ret value => cases stepped
  | op instr next =>
      cases stepped
      exact ⟨rfl, rfl⟩

/-! ### Postconditions -/

/-- Run alone, the program executes only instructions that meet `ok` and ends
in `post`. -/
def Wp (sem : Semantics Reply State) (ok : State → Instr → Prop) (post : α → State → Prop) :
    Prog Reply α → State → Prop
  | ret value, state => post value state
  | op instr next, state =>
      ok state instr ∧ (next (sem instr state).1).Wp sem ok post (sem instr state).2

section Wp

variable {post : α → State → Prop} {post' : β → State → Prop}

@[simp] theorem wp_ret (value : α) (state : State) :
    (ret value : Prog Reply α).Wp sem ok post state ↔ post value state := Iff.rfl

theorem wp_iff {prog : Prog Reply α} {state : State} :
    prog.Wp sem ok post state ↔
      prog.Guarded sem ok state ∧ post (prog.run sem state).1 (prog.run sem state).2 := by
  induction prog generalizing state with
  | ret value => simp
  | op instr next ih => simp only [Wp, guarded_op, run_op, ih, and_assoc]

theorem wp_bind {prog : Prog Reply α} {rest : α → Prog Reply β} {state : State} :
    (prog >>= rest).Wp sem ok post' state ↔
      prog.Wp sem ok (fun value last => (rest value).Wp sem ok post' last) state := by
  induction prog generalizing state with
  | ret value => rfl
  | op instr next ih => exact and_congr_right (fun _ => ih _)

theorem Wp.weaken {weaker : α → State → Prop}
    (imp : ∀ value state, post value state → weaker value state)
    {prog : Prog Reply α} {state : State} (wp : prog.Wp sem ok post state) :
    prog.Wp sem ok weaker state :=
  wp_iff.mpr ((wp_iff.mp wp).imp_right (imp _ _))

end Wp

/-! ### Prefixes of an execution -/

def after (sem : Semantics Reply State) : Nat → Prog Reply α → State → State
  | 0, _, state => state
  | _ + 1, ret _, state => state
  | count + 1, op instr next, state =>
      after sem count (next (sem instr state).1) (sem instr state).2

/-- What every permitted instruction preserves holds wherever a guarded program
is stopped. -/
theorem Guarded.after_preserves {motive : State → Prop}
    (step : ∀ state instr, motive state → ok state instr → motive (sem instr state).2)
    {prog : Prog Reply α} {state : State} (init : motive state)
    (guarded : prog.Guarded sem ok state) (count : Nat) :
    motive (after sem count prog state) := by
  induction count generalizing prog state with
  | zero => exact init
  | succ count ih =>
      cases prog with
      | ret value => exact init
      | op instr next => exact ih (step _ _ init guarded.1) guarded.2

/-- Wherever a guarded program is stopped, what it would still do preserves
what the permitted instructions preserve. -/
theorem Guarded.after_run {motive : State → State → Prop} (refl : ∀ state, motive state state)
    (step : ∀ first state instr, motive first state → ok state instr →
      motive first (sem instr state).2)
    {prog : Prog Reply α} {state : State} (guarded : prog.Guarded sem ok state) (count : Nat) :
    motive (after sem count prog state) (prog.run sem state).2 := by
  induction count generalizing prog state with
  | zero => exact guarded.run_preserves (step state) (refl state)
  | succ count ih =>
      cases prog with
      | ret value => exact refl state
      | op instr next => exact ih guarded.2

/-! ### Programs over a finer state -/

section Project

variable {Fine : Type} {fine : Semantics Reply Fine} {project : Fine → State}

/-- `fine` does to the projected state what `sem` does. -/
def Projects (fine : Semantics Reply Fine) (sem : Semantics Reply State)
    (project : Fine → State) : Prop :=
  ∀ instr state, (fine instr state).1 = (sem instr (project state)).1 ∧
    project (fine instr state).2 = (sem instr (project state)).2

theorem Projects.run (projects : Projects fine sem project) (prog : Prog Reply α)
    (state : Fine) :
    (prog.run fine state).1 = (prog.run sem (project state)).1 ∧
      project (prog.run fine state).2 = (prog.run sem (project state)).2 := by
  induction prog generalizing state with
  | ret value => exact ⟨rfl, rfl⟩
  | op instr next ih =>
      obtain ⟨replied, moved⟩ := projects instr state
      rw [run_op, run_op, ← replied, ← moved]
      exact ih _ _

theorem Projects.guarded (projects : Projects fine sem project) {prog : Prog Reply α}
    {state : Fine} (guarded : prog.Guarded sem ok (project state)) :
    prog.Guarded fine (fun state instr => ok (project state) instr) state := by
  induction prog generalizing state with
  | ret value => trivial
  | op instr next ih =>
      obtain ⟨replied, moved⟩ := projects instr state
      refine ⟨guarded.1, ih _ ?_⟩
      rw [replied, moved]
      exact guarded.2

end Project

theorem Guarded.and {ok' : State → Instr → Prop} {prog : Prog Reply α} {state : State}
    (first : prog.Guarded sem ok state) (second : prog.Guarded sem ok' state) :
    prog.Guarded sem (fun state instr => ok state instr ∧ ok' state instr) state := by
  induction prog generalizing state with
  | ret value => trivial
  | op instr next ih => exact ⟨⟨first.1, second.1⟩, ih _ first.2 second.2⟩

/-- A stop within a sequence is a stop within its first part or, after that
part, within the second. -/
theorem after_bind (sem : Semantics Reply State) (count : Nat) (prog : Prog Reply α)
    (rest : α → Prog Reply β) (state : State) :
    ∃ reached,
      after sem count (prog >>= rest) state = after sem reached prog state ∨
        after sem count (prog >>= rest) state =
          after sem reached (rest (prog.run sem state).1) (prog.run sem state).2 := by
  induction count generalizing prog state with
  | zero => exact ⟨0, .inl rfl⟩
  | succ count ih =>
      cases prog with
      | ret value => exact ⟨count + 1, .inr rfl⟩
      | op instr next =>
          obtain ⟨reached, inside | beyond⟩ := ih (next (sem instr state).1) (sem instr state).2
          · exact ⟨reached + 1, .inl inside⟩
          · exact ⟨reached, .inr beyond⟩

/-! ### Programs over a family of states -/

section Each

variable {Index : Type} [DecidableEq Index]

def on (index : Index) : Prog Reply α → Prog (fun pair : Index × Instr => Reply pair.2) α
  | ret value => ret value
  | op instr next => op (index, instr) (fun reply => (next reply).on index)

def each (sem : Index → Semantics Reply State) :
    Semantics (fun pair : Index × Instr => Reply pair.2) (Index → State) :=
  fun pair states =>
    ((sem pair.1 pair.2 (states pair.1)).1,
      Function.update states pair.1 (sem pair.1 pair.2 (states pair.1)).2)

variable {family : Index → Semantics Reply State}

theorem run_on (index : Index) (prog : Prog Reply α) (states : Index → State) :
    (prog.on index).run (each family) states =
      ((prog.run (family index) (states index)).1,
        Function.update states index (prog.run (family index) (states index)).2) := by
  induction prog generalizing states with
  | ret value => rw [on, run_ret, run_ret, Function.update_eq_self]
  | op instr next ih =>
      rw [on, run_op, ih, run_op]
      simp only [each, Function.update_self, Function.update_idem]

theorem after_on (count : Nat) (index : Index) (prog : Prog Reply α) (states : Index → State) :
    after (each family) count (prog.on index) states =
      Function.update states index (after (family index) count prog (states index)) := by
  induction count generalizing prog states with
  | zero => exact (Function.update_eq_self _ _).symm
  | succ count ih =>
      cases prog with
      | ret value => exact (Function.update_eq_self _ _).symm
      | op instr next =>
          rw [on, after, ih, after]
          simp only [each, Function.update_self, Function.update_idem]

/-- A family of projections projects the family. -/
theorem Projects.each {Fine : Type} {fine : Index → Semantics Reply Fine}
    {project : Fine → State} (projects : ∀ index, Projects (fine index) (family index) project) :
    Projects (Prog.each fine) (Prog.each family) (fun states index => project (states index)) := by
  rintro ⟨index, instr⟩ states
  obtain ⟨replied, moved⟩ := projects index instr (states index)
  refine ⟨replied, funext fun other => ?_⟩
  by_cases here : other = index
  · subst here
    simpa [Prog.each] using moved
  · simp [Prog.each, here]

end Each

/-! ### Programs of restricted instructions -/

/-- Every instruction of the tree, on every path, meets `kind`. -/
def Only (kind : Instr → Prop) : Prog Reply α → Prop
  | ret _ => True
  | op instr next => kind instr ∧ ∀ reply, (next reply).Only kind

variable {kind : Instr → Prop}

@[simp] theorem only_ret (value : α) : (ret value : Prog Reply α).Only kind := trivial

@[simp] theorem only_op (instr : Instr) (next : Reply instr → Prog Reply α) :
    (op instr next).Only kind ↔ kind instr ∧ ∀ reply, (next reply).Only kind := Iff.rfl

theorem Only.bind {prog : Prog Reply α} {rest : α → Prog Reply β} (first : prog.Only kind)
    (second : ∀ value, (rest value).Only kind) : (prog >>= rest).Only kind := by
  induction prog with
  | ret value => exact second value
  | op instr next ih => exact ⟨first.1, fun reply => ih reply (first.2 reply)⟩

theorem Only.ite {condition : Prop} [Decidable condition] {yes no : Prog Reply α}
    (first : yes.Only kind) (second : no.Only kind) :
    (if condition then yes else no).Only kind := by
  split
  · exact first
  · exact second

theorem Only.guarded {prog : Prog Reply α} (only : prog.Only kind)
    (permitted : ∀ state instr, kind instr → ok state instr) (state : State) :
    prog.Guarded sem ok state := by
  induction prog generalizing state with
  | ret value => trivial
  | op instr next ih => exact ⟨permitted state instr only.1, ih _ (only.2 _) _⟩

theorem Only.advance {prog rest : Prog Reply α} {state after : State} (only : prog.Only kind)
    (unchanged : ∀ state instr, kind instr → (sem instr state).2 = state)
    (stepped : prog.advance sem state = some (rest, after)) :
    rest.Only kind ∧ after = state := by
  cases prog with
  | ret value => cases stepped
  | op instr next =>
      cases stepped
      exact ⟨only.2 _, unchanged _ _ only.1⟩

/-! ### Programs under interference -/

/-- The program ends in `post` although the state may take any step that
`rely` permits before each of its instructions and before its return. -/
def Under (sem : Semantics Reply State) (rely : State → State → Prop)
    (post : α → State → Prop) : Prog Reply α → State → Prop
  | ret value, state => ∀ later, rely state later → post value later
  | op instr next, state =>
      ∀ later, rely state later →
        (next (sem instr later).1).Under sem rely post (sem instr later).2

section Under

variable {rely : State → State → Prop} {post : α → State → Prop} {post' : β → State → Prop}

theorem Under.stable (trans : ∀ a b c, rely a b → rely b c → rely a c) {prog : Prog Reply α}
    {state later : State} (under : prog.Under sem rely post state) (moved : rely state later) :
    prog.Under sem rely post later := by
  cases prog with
  | ret value => exact fun last step => under last (trans _ _ _ moved step)
  | op instr next => exact fun last step => under last (trans _ _ _ moved step)

theorem Under.bind (refl : ∀ state, rely state state) {prog : Prog Reply α}
    {rest : α → Prog Reply β} {state : State}
    (under : prog.Under sem rely (fun value => (rest value).Under sem rely post') state) :
    (prog >>= rest).Under sem rely post' state := by
  induction prog generalizing state with
  | ret value => exact under state (refl state)
  | op instr next ih => exact fun later step => ih _ (under later step)

theorem Under.advance (refl : ∀ state, rely state state) {prog rest : Prog Reply α}
    {state after : State} (under : prog.Under sem rely post state)
    (stepped : prog.advance sem state = some (rest, after)) :
    rest.Under sem rely post after := by
  cases prog with
  | ret value => cases stepped
  | op instr next =>
      cases stepped
      exact under state (refl state)

/-- A program that changes nothing ends in a state that interference alone
leads to. -/
theorem Under.frame (trans : ∀ a b c, rely a b → rely b c → rely a c)
    (unchanged : ∀ state instr, (sem instr state).2 = state) {prog : Prog Reply α}
    {state : State} (under : prog.Under sem rely post state) :
    prog.Under sem rely (fun value last => post value last ∧ rely state last) state := by
  have framed : ∀ start, (∀ last, rely state last → rely start last) →
      prog.Under sem rely (fun value last => post value last ∧ rely start last) state := by
    intro start covered
    induction prog generalizing state with
    | ret value => exact fun last moved => ⟨under last moved, covered last moved⟩
    | op instr next ih =>
        intro later moved
        refine ih _ (under later moved) (fun last further => ?_)
        rw [unchanged] at further
        exact covered last (trans _ _ _ moved further)
  exact framed state (fun _ moved => moved)

theorem Under.conseq {weaker : α → State → Prop}
    (weaken : ∀ value state, post value state → weaker value state) {prog : Prog Reply α}
    {state : State} (under : prog.Under sem rely post state) :
    prog.Under sem rely weaker state := by
  induction prog generalizing state with
  | ret value => exact fun last moved => weaken value last (under last moved)
  | op instr next ih => exact fun later moved => ih _ (under later moved)

theorem Under.returned (refl : ∀ state, rely state state) {value : α} {state : State}
    (under : (ret value : Prog Reply α).Under sem rely post state) : post value state :=
  under state (refl state)

end Under

/-! ### Programs with obligations under interference -/

/-- As `Under`, where `inv` holds of the state before each instruction and
before the return, and each instruction meets `ok` in the state in which it is
executed. -/
def Assured (sem : Semantics Reply State) (inv : State → Prop) (rely : State → State → Prop)
    (ok : State → Instr → Prop) (post : α → State → Prop) : Prog Reply α → State → Prop
  | ret value, state => ∀ later, inv later → rely state later → post value later
  | op instr next, state =>
      ∀ later, inv later → rely state later →
        ok later instr ∧
          (next (sem instr later).1).Assured sem inv rely ok post (sem instr later).2

def Stable (rely : State → State → Prop) (assertion : State → Prop) : Prop :=
  ∀ state later, rely state later → assertion state → assertion later

section Assured

variable {inv assertion : State → Prop} {rely : State → State → Prop}
  {post : α → State → Prop} {post' : β → State → Prop}

theorem assured_ret {value : α} {state : State} (stable : Stable rely assertion)
    (now : assertion state) (meets : ∀ later, assertion later → post value later) :
    (ret value : Prog Reply α).Assured sem inv rely ok post state :=
  fun later _ moved => meets later (stable state later moved now)

theorem assured_op {instr : Instr} {next : Reply instr → Prog Reply α} {state : State}
    (stable : Stable rely assertion) (now : assertion state)
    (step : ∀ later, inv later → assertion later → ok later instr ∧
      (next (sem instr later).1).Assured sem inv rely ok post (sem instr later).2) :
    (op instr next).Assured sem inv rely ok post state :=
  fun later meets moved => step later meets (stable state later moved now)

theorem Assured.stable (trans : ∀ a b c, rely a b → rely b c → rely a c) {prog : Prog Reply α}
    {state later : State} (assured : prog.Assured sem inv rely ok post state)
    (moved : rely state later) : prog.Assured sem inv rely ok post later := by
  cases prog with
  | ret value => exact fun last meets step => assured last meets (trans _ _ _ moved step)
  | op instr next => exact fun last meets step => assured last meets (trans _ _ _ moved step)

theorem Assured.bind (refl : ∀ state, rely state state) {prog : Prog Reply α}
    {rest : α → Prog Reply β} {state : State}
    (assured : prog.Assured sem inv rely ok
      (fun value => (rest value).Assured sem inv rely ok post') state) :
    (prog >>= rest).Assured sem inv rely ok post' state := by
  induction prog generalizing state with
  | ret value =>
      simp only [ret_bind]
      have follows : ∀ later, inv later → rely state later →
          (rest value).Assured sem inv rely ok post' later := assured
      revert follows
      cases rest value with
      | ret last =>
          intro follows later meets moved
          exact follows later meets moved later meets (refl later)
      | op instr next =>
          intro follows later meets moved
          exact follows later meets moved later meets (refl later)
  | op instr next ih =>
      intro later meets moved
      obtain ⟨permitted, continues⟩ := assured later meets moved
      exact ⟨permitted, ih _ continues⟩

theorem Assured.advance (refl : ∀ state, rely state state) {prog rest : Prog Reply α}
    {state after : State} (assured : prog.Assured sem inv rely ok post state) (meets : inv state)
    (stepped : prog.advance sem state = some (rest, after)) :
    ∃ instr, prog.next? = some instr ∧ ok state instr ∧ after = (sem instr state).2 ∧
      rest.Assured sem inv rely ok post after := by
  cases prog with
  | ret value => cases stepped
  | op instr next =>
      cases stepped
      obtain ⟨permitted, continues⟩ := assured state meets (refl state)
      exact ⟨instr, rfl, permitted, rfl, continues⟩

theorem Assured.returned (refl : ∀ state, rely state state) {value : α} {state : State}
    (assured : (ret value : Prog Reply α).Assured sem inv rely ok post state)
    (meets : inv state) : post value state :=
  assured state meets (refl state)

theorem Assured.conseq {weaker : α → State → Prop}
    (weaken : ∀ value state, post value state → weaker value state) {prog : Prog Reply α}
    {state : State} (assured : prog.Assured sem inv rely ok post state) :
    prog.Assured sem inv rely ok weaker state := by
  induction prog generalizing state with
  | ret value => exact fun last meets moved => weaken value last (assured last meets moved)
  | op instr next ih =>
      intro later meets moved
      obtain ⟨permitted, continues⟩ := assured later meets moved
      exact ⟨permitted, ih _ continues⟩

/-- A program of instructions that are no more than interference keeps what is
stable. -/
theorem Only.assured {kind : Instr → Prop} {prog : Prog Reply α} {state : State}
    (only : prog.Only kind) (permitted : ∀ state instr, kind instr → ok state instr)
    (moves : ∀ state instr, kind instr → rely state (sem instr state).2)
    (stable : Stable rely assertion) (now : assertion state) :
    prog.Assured sem inv rely ok (fun _ => assertion) state := by
  induction prog generalizing state with
  | ret value => exact assured_ret stable now (fun _ holds => holds)
  | op instr next ih =>
      apply assured_op stable now
      intro later _ holds
      refine ⟨permitted later instr only.1, ih _ (only.2 _) ?_⟩
      exact stable _ _ (moves later instr only.1) holds

end Assured

end Prog

end Hiom
