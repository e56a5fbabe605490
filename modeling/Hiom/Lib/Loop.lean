import Mathlib

/-!
Loops over a list whose body may get stuck: a condition on the state before
each round, and the rule for what a loop makes true of its items one by one.
-/

namespace Hiom

variable {State Item : Type} {body : State → Item → Option State} {ok : State → Item → Prop}

/-- Every round that the loop comes to meets the condition. -/
def Along (body : State → Item → Option State) (ok : State → Item → Prop) :
    List Item → State → Prop
  | [], _ => True
  | item :: rest, state =>
      ok state item ∧ ∀ next, body state item = some next → Along body ok rest next

/-- The loop rule: a round keeps the invariant, finishes its item and leaves the
finished ones finished. -/
theorem Along.loop {items : List Item} {state last : State} (motive : State → Prop)
    (finished : Item → State → Prop)
    (round : ∀ item ∈ items, ∀ state next, motive state → ok state item →
      body state item = some next →
      motive next ∧ finished item next ∧ ∀ other, finished other state → finished other next)
    (along : Along body ok items state) (start : motive state)
    (ran : items.foldlM body state = some last) :
    motive last ∧ (∀ item ∈ items, finished item last) ∧
      ∀ other, finished other state → finished other last := by
  induction items generalizing state with
  | nil =>
      cases ran
      exact ⟨start, fun _ inside => absurd inside List.not_mem_nil, fun _ done => done⟩
  | cons item rest ih =>
      rw [List.foldlM_cons, Option.bind_eq_bind, Option.bind_eq_some_iff] at ran
      obtain ⟨next, stepped, ran⟩ := ran
      obtain ⟨meets, along⟩ := along
      obtain ⟨kept, done, still⟩ := round item List.mem_cons_self state next start meets stepped
      obtain ⟨ended, items_done, after⟩ := ih
        (fun other inside => round other (List.mem_cons_of_mem _ inside)) (along next stepped) kept ran
      refine ⟨ended, ?_, fun other before => after other (still other before)⟩
      intro other inside
      rcases List.mem_cons.mp inside with rfl | later
      · exact after _ done
      · exact items_done other later

def along (body : State → Item → Option State) (check : State → Item → Bool) :
    List Item → State → Bool
  | [], _ => true
  | item :: rest, state =>
      check state item && (body state item).all (fun next => along body check rest next)

theorem Along.of_along {check : State → Item → Bool} {items : List Item} {state : State}
    (motive : State → Prop) (start : motive state)
    (meets : ∀ item ∈ items, ∀ state, motive state → check state item = true → ok state item)
    (keeps : ∀ item ∈ items, ∀ state next, motive state → ok state item →
      body state item = some next → motive next)
    (passed : along body check items state = true) : Along body ok items state := by
  induction items generalizing state with
  | nil => trivial
  | cons item rest ih =>
      simp only [along, Bool.and_eq_true] at passed
      obtain ⟨here, later⟩ := passed
      have settles : ok state item := meets item List.mem_cons_self state start here
      constructor
      · exact settles
      · intro next stepped
        rw [stepped, Option.all_some] at later
        apply ih (keeps item List.mem_cons_self state next start settles stepped) _ _ later
        · exact fun other inside => meets other (List.mem_cons_of_mem _ inside)
        · exact fun other inside => keeps other (List.mem_cons_of_mem _ inside)

end Hiom
