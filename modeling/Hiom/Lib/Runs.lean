import Mathlib

/-!
A sorted list cut into runs of equal keys, and a pass that picks for each
identity of each run at most one of its entries. Where an identity has one key,
it is picked once at most, from the one run that has all its entries.
-/

namespace Hiom.Runs

variable {α ι : Type} {key : α → Nat} {same : α → α → Bool} {entries run : List α}

theorem mem_run (member : run ∈ entries.splitBy same) {a : α} (inside : a ∈ run) : a ∈ entries := by
  rw [← List.flatten_splitBy same entries]
  exact List.mem_flatten.mpr ⟨run, member, inside⟩

theorem exists_run {a : α} (inside : a ∈ entries) : ∃ run ∈ entries.splitBy same, a ∈ run := by
  rw [← List.flatten_splitBy same entries] at inside
  obtain ⟨run, member, here⟩ := List.mem_flatten.mp inside
  exact ⟨run, member, here⟩

section Cut

variable (same_iff : ∀ a b, same a b = true ↔ key a = key b)

include same_iff

/-- The entries of a run have one key. -/
theorem run_key (member : run ∈ entries.splitBy same) {a b : α} (first : a ∈ run)
    (second : b ∈ run) : key a = key b := by
  have linked : run.IsChain (fun a b => key a = key b) :=
    (List.isChain_of_mem_splitBy member).imp (fun a b holds => (same_iff a b).mp holds)
  have trans : Trans (fun a b : α => key a = key b) (fun a b => key a = key b)
      (fun a b => key a = key b) := ⟨fun first second => first.trans second⟩
  have symm : Std.Symm (fun a b : α => key a = key b) := ⟨fun _ _ same_key => same_key.symm⟩
  have all : run.Pairwise (fun a b => key a = key b) := linked.pairwise
  exact @List.Pairwise.forall_of_forall α (fun a b => key a = key b) run symm (fun _ _ => rfl) all
    _ first _ second

/-- Of a sorted list, the keys grow from run to run. -/
theorem runs_grow (sorted : entries.Pairwise (fun a b => key a ≤ key b)) :
    (entries.splitBy same).Pairwise (fun first second =>
      second ≠ [] ∧ ∀ a ∈ first, ∀ b ∈ second, key a < key b) := by
  have trans : Trans (fun first second : List α =>
        second ≠ [] ∧ ∀ a ∈ first, ∀ b ∈ second, key a < key b)
      (fun first second => second ≠ [] ∧ ∀ a ∈ first, ∀ b ∈ second, key a < key b)
      (fun first second => second ≠ [] ∧ ∀ a ∈ first, ∀ b ∈ second, key a < key b) := by
    constructor
    intro first second third before after
    obtain ⟨middle, here⟩ := List.exists_mem_of_ne_nil second before.1
    exact ⟨after.1, fun a inside b there =>
      Nat.lt_trans (before.2 a inside middle here) (after.2 middle here b there)⟩
  have chain := List.isChain_getLast_head_splitBy same entries
  have ordered : (entries.splitBy same).flatten.Pairwise (fun a b => key a ≤ key b) := by
    rw [List.flatten_splitBy]
    exact sorted
  have between := (List.pairwise_flatten.mp ordered).2
  apply List.IsChain.pairwise
  rw [List.isChain_iff_getElem] at chain ⊢
  intro i inside
  obtain ⟨some_first, some_second, apart⟩ := chain i inside
  have le := List.pairwise_iff_getElem.mp between i (i + 1) (by omega) inside (Nat.lt_succ_self i)
  refine ⟨some_second, ?_⟩
  intro a first b second
  have last := run_key same_iff (List.getElem_mem (by omega)) first (List.getLast_mem some_first)
  have head := run_key same_iff (List.getElem_mem inside) second (List.head_mem some_second)
  have below := le _ (List.getLast_mem some_first) _ (List.head_mem some_second)
  have different : key ((entries.splitBy same)[i].getLast some_first) ≠
      key ((entries.splitBy same)[i + 1].head some_second) := by
    intro equal
    rw [(same_iff _ _).mpr equal] at apart
    cases apart
  omega

end Cut

/-! ### Picks -/

theorem nodup_eraseDups [BEq ι] [LawfulBEq ι] (ids : List ι) : ids.eraseDups.Nodup := by
  induction size : ids.length using Nat.strong_induction_on generalizing ids with
  | h n ih =>
      cases ids with
      | nil => exact List.nodup_nil
      | cons id rest =>
          rw [List.eraseDups_cons, List.nodup_cons]
          have shorter : (rest.filter fun other => !other == id).length < n := by
            have filtered := List.length_filter_le (fun other => !other == id) rest
            rw [List.length_cons] at size
            omega
          constructor
          · rw [List.mem_eraseDups, List.mem_filter]
            simp
          · exact ih _ shorter _ rfl

variable [DecidableEq ι] (id : α → ι) (pick : List α → ι → Option α)

def picked (runs : List (List α)) : List α :=
  runs.flatMap fun run => (run.map id).eraseDups.filterMap (pick run)

variable {id pick} {runs : List (List α)}

section Picks

variable (own : ∀ run i e, pick run i = some e → e ∈ run ∧ id e = i)

include own

theorem mem_picked {e : α} : e ∈ picked id pick runs ↔ ∃ run ∈ runs, pick run (id e) = some e := by
  unfold picked
  simp only [List.mem_flatMap, List.mem_filterMap, List.mem_eraseDups, List.mem_map]
  constructor
  · rintro ⟨run, member, i, -, found⟩
    rw [← (own run i e found).2] at found
    exact ⟨run, member, found⟩
  · rintro ⟨run, member, found⟩
    exact ⟨run, member, id e, ⟨e, (own _ _ _ found).1, rfl⟩, found⟩

/-- No identity is picked twice, if no two runs share one. -/
theorem picked_nodup
    (apart : runs.Pairwise (fun first second => ∀ a ∈ first, ∀ b ∈ second, id a ≠ id b)) :
    ((picked id pick runs).map id).Nodup := by
  unfold picked
  rw [List.map_flatMap, List.nodup_flatMap]
  constructor
  · intro run _
    have ids : ∀ ids : List ι, (ids.filterMap (pick run)).map id = ids.filterMap fun i =>
        (pick run i).map id := by
      intro ids
      rw [List.map_filterMap]
    rw [ids]
    apply (nodup_eraseDups (run.map id)).filterMap
    intro i j shared first second
    obtain ⟨e, found, rfl⟩ := Option.map_eq_some_iff.mp first
    obtain ⟨other, found_again, same_id⟩ := Option.map_eq_some_iff.mp second
    rw [← (own run i e found).2, ← (own run j other found_again).2, same_id]
  · apply apart.imp
    intro first second disjoint i from_first from_second
    obtain ⟨a, picks_a, rfl⟩ := List.mem_map.mp from_first
    obtain ⟨b, picks_b, same_id⟩ := List.mem_map.mp from_second
    obtain ⟨i, -, found_a⟩ := List.mem_filterMap.mp picks_a
    obtain ⟨j, -, found_b⟩ := List.mem_filterMap.mp picks_b
    exact disjoint a (own _ _ _ found_a).1 b (own _ _ _ found_b).1 same_id.symm

end Picks

/-- Of a sorted list cut by its keys, an identity with one key is picked once
at most. -/
theorem picked_once (same_iff : ∀ a b, same a b = true ↔ key a = key b)
    (sorted : entries.Pairwise (fun a b => key a ≤ key b))
    (one_key : ∀ a ∈ entries, ∀ b ∈ entries, id a = id b → key a = key b)
    (own : ∀ run i e, pick run i = some e → e ∈ run ∧ id e = i) :
    ((picked id pick (entries.splitBy same)).map id).Nodup := by
  apply picked_nodup own
  apply (runs_grow same_iff sorted).imp_of_mem
  intro first second member other grow a inside b there same_id
  have below := grow.2 a inside b there
  have equal := one_key a (mem_run member inside) b (mem_run other there) same_id
  omega

omit [DecidableEq ι] in
/-- The run of an entry has every entry of its identity. -/
theorem run_whole (same_iff : ∀ a b, same a b = true ↔ key a = key b)
    (sorted : entries.Pairwise (fun a b => key a ≤ key b))
    (one_key : ∀ a ∈ entries, ∀ b ∈ entries, id a = id b → key a = key b)
    (member : run ∈ entries.splitBy same) {a b : α} (inside : a ∈ run) (there : b ∈ entries)
    (same_id : id b = id a) : b ∈ run := by
  obtain ⟨other, other_member, here⟩ := @exists_run α same entries b there
  have equal := one_key b there a (mem_run member inside) same_id
  by_cases one : other = run
  · rw [← one]
    exact here
  · have grow := runs_grow same_iff sorted
    rcases List.mem_iff_getElem.mp member with ⟨i, i_lt, rfl⟩
    rcases List.mem_iff_getElem.mp other_member with ⟨j, j_lt, rfl⟩
    rcases Nat.lt_trichotomy i j with before | rfl | after
    · have below := (List.pairwise_iff_getElem.mp grow i j i_lt j_lt before).2 a inside b here
      omega
    · exact absurd rfl one
    · have below := (List.pairwise_iff_getElem.mp grow j i j_lt i_lt after).2 b here a inside
      omega

end Hiom.Runs
