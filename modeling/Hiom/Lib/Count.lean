import Mathlib

/-!
How many members of a family meet a condition. The family may be infinite, as
an unbounded number of threads is; the count is of those that meet it.
-/

namespace Hiom

variable {Index State : Type} {meets : State → Prop} {family : Index → State} {index : Index}
  {state : State} {count : Nat}

def Counts (meets : State → Prop) (family : Index → State) (count : Nat) : Prop :=
  ∃ members : Finset Index, (∀ index, index ∈ members ↔ meets (family index)) ∧
    members.card = count

namespace Counts

theorem none_meets (absent : ∀ index, ¬meets (family index)) : Counts meets family 0 :=
  ⟨∅, fun index => by simp [absent index], rfl⟩

theorem eq_zero (counts : Counts meets family count) (absent : ∀ index, ¬meets (family index)) :
    count = 0 := by
  obtain ⟨members, exact, rfl⟩ := counts
  rw [Finset.card_eq_zero, Finset.eq_empty_iff_forall_notMem]
  intro index member
  exact absent index ((exact index).mp member)

theorem pos (counts : Counts meets family count) (present : meets (family index)) : 0 < count := by
  obtain ⟨members, exact, rfl⟩ := counts
  exact Finset.card_pos.mpr ⟨index, (exact index).mpr present⟩

variable [DecidableEq Index]

theorem keep (counts : Counts meets family count) (same : meets state ↔ meets (family index)) :
    Counts meets (Function.update family index state) count := by
  obtain ⟨members, exact, rfl⟩ := counts
  refine ⟨members, fun other => ?_, rfl⟩
  by_cases here : other = index
  · subst here
    rw [Function.update_self, exact, same]
  · rw [Function.update_of_ne here, exact]

theorem enter (counts : Counts meets family count) (before : ¬meets (family index))
    (after : meets state) : Counts meets (Function.update family index state) (count + 1) := by
  obtain ⟨members, exact, rfl⟩ := counts
  refine ⟨insert index members, fun other => ?_,
    Finset.card_insert_of_notMem (fun member => before ((exact index).mp member))⟩
  rw [Finset.mem_insert]
  by_cases here : other = index
  · subst here
    simp [after]
  · rw [Function.update_of_ne here, exact]
    exact ⟨fun either => either.resolve_left here, .inr⟩

theorem leave (counts : Counts meets family (count + 1)) (before : meets (family index))
    (after : ¬meets state) : Counts meets (Function.update family index state) count := by
  obtain ⟨members, exact, total⟩ := counts
  refine ⟨members.erase index, fun other => ?_, ?_⟩
  · rw [Finset.mem_erase]
    by_cases here : other = index
    · subst here
      simp [after]
    · rw [Function.update_of_ne here, exact]
      exact ⟨And.right, fun present => ⟨here, present⟩⟩
  · rw [Finset.card_erase_of_mem ((exact index).mpr before), total]
    rfl

end Counts

end Hiom
