import Mathlib
import Hiom.Lib.Chunks

/-!
How the scans of a recovery split their blocks among threads. The arithmetic is
that of unsigned words of 64 bits; a step that would wrap around or divide by
zero has no value.
-/

namespace Hiom.Recovery.Ranges

/-! ### Words -/

def add64 (a b : Nat) : Option Nat := if a + b < 2 ^ 64 then some (a + b) else none

def sub64 (a b : Nat) : Option Nat := if b ≤ a then some (a - b) else none

def mul64 (a b : Nat) : Option Nat := if a * b < 2 ^ 64 then some (a * b) else none

def div64 (a b : Nat) : Option Nat := if b = 0 then none else some (a / b)

/-! ### The three splits -/

structure BlockRange where
  lo : Nat
  hi : Nat
  deriving DecidableEq

def BlockRange.blocks (range : BlockRange) : List Nat := List.range' range.lo (range.hi - range.lo)

def thread_range (start stop per_thread t : Nat) : Option BlockRange := do
  let lo ← add64 start (← mul64 t per_thread)
  some ⟨lo, min (← add64 lo per_thread) stop⟩

def thread_ranges (start stop per_thread num_threads : Nat) : Option (List BlockRange) :=
  (List.range num_threads).mapM (thread_range start stop per_thread)

def recover_database (num_used_blocks num_recovery_threads : Nat) : Option (List BlockRange) := do
  let num_rec_threads := min num_used_blocks num_recovery_threads
  let num_blocks_per_thread ← add64 (← div64 num_used_blocks num_rec_threads) 1
  thread_ranges 0 num_used_blocks num_blocks_per_thread num_rec_threads

def rounded_up (num_blocks num_threads : Nat) : Option Nat := do
  div64 (← sub64 (← add64 num_blocks num_threads) 1) num_threads

/-- A thread without blocks is not started. -/
def started (ranges : List BlockRange) : List BlockRange := ranges.filter (fun r => r.lo < r.hi)

def recover_tail_into_cold (start_block current_block threads : Nat) :
    Option (List BlockRange) :=
  if current_block ≤ start_block then some []
  else do
    let num_blocks ← sub64 current_block start_block
    let num_threads := min num_blocks (max 1 threads)
    let per_thread ← rounded_up num_blocks num_threads
    (← thread_ranges start_block current_block per_thread num_threads) |> started |> some

def hiom_clear_all_stale_page_locks (used_blocks threads : Nat) : Option (List BlockRange) :=
  if used_blocks = 0 then some []
  else
    let num_threads := max 1 (min threads used_blocks)
    if num_threads = 1 then some [⟨0, used_blocks⟩]
    else do
      let per_thread ← rounded_up used_blocks num_threads
      (← thread_ranges 0 used_blocks per_thread num_threads) |> started |> some

inductive Scan where
  | recover_database (num_used_blocks num_recovery_threads : Nat)
  | recover_tail_into_cold (start_block current_block threads : Nat)
  | hiom_clear_all_stale_page_locks (used_blocks threads : Nat)
  deriving DecidableEq

namespace Scan

def ranges : Scan → Option (List BlockRange)
  | .recover_database n threads => Ranges.recover_database n threads
  | .recover_tail_into_cold start current threads =>
      Ranges.recover_tail_into_cold start current threads
  | .hiom_clear_all_stale_page_locks n threads =>
      Ranges.hiom_clear_all_stale_page_locks n threads

def start : Scan → Nat
  | .recover_tail_into_cold start _ _ => start
  | _ => 0

def stop : Scan → Nat
  | .recover_database n _ | .hiom_clear_all_stale_page_locks n _ => n
  | .recover_tail_into_cold _ current _ => current

def threads : Scan → Nat
  | .recover_database _ threads | .recover_tail_into_cold _ _ threads
  | .hiom_clear_all_stale_page_locks _ threads => threads

/-- A block number has 45 bits, and a count of blocks is one more at most. -/
structure Proper (scan : Scan) : Prop where
  stop_le : scan.stop ≤ 2 ^ 45
  threads_pos : 1 ≤ scan.threads

end Scan

/-! ### Partitions -/

structure Partition (ranges : List BlockRange) (start stop : Nat) : Prop where
  disjoint : ranges.Pairwise (fun a b => ∀ block ∈ a.blocks, block ∉ b.blocks)
  inside : ∀ range ∈ ranges, ∀ block ∈ range.blocks, start ≤ block ∧ block < stop
  covers : ∀ block, start ≤ block → block < stop → ∃ range ∈ ranges, block ∈ range.blocks

variable {start stop per_thread num_threads : Nat} {ranges : List BlockRange}

/-- Ranges whose blocks are, in their order, those of the whole. -/
theorem partition_of_blocks
    (blocks : ranges.flatMap BlockRange.blocks = List.range' start (stop - start)) :
    Partition ranges start stop where
  disjoint := by
    have once : (ranges.flatMap BlockRange.blocks).Nodup := by
      rw [blocks]
      exact List.nodup_range'
    apply (List.nodup_flatMap.mp once).2.imp
    intro a b apart block inside other
    exact apart inside other
  inside := by
    intro range member block inside
    have whole : block ∈ ranges.flatMap BlockRange.blocks :=
      List.mem_flatMap.mpr ⟨range, member, inside⟩
    rw [blocks, List.mem_range'_1] at whole
    omega
  covers := by
    intro block from_start before_stop
    have whole : block ∈ List.range' start (stop - start) := by
      rw [List.mem_range'_1]
      omega
    rw [← blocks] at whole
    exact List.mem_flatMap.mp whole

theorem started_blocks (ranges : List BlockRange) :
    (started ranges).flatMap BlockRange.blocks = ranges.flatMap BlockRange.blocks := by
  induction ranges with
  | nil => rfl
  | cons range rest ih =>
      unfold started at ih ⊢
      rw [List.filter_cons]
      split
      · rw [List.flatMap_cons, List.flatMap_cons, ih]
      · rename_i idle
        have nothing : range.blocks = [] := by
          unfold BlockRange.blocks
          rw [decide_eq_true_iff] at idle
          rw [show range.hi - range.lo = 0 by omega, List.range'_zero]
        rw [ih, List.flatMap_cons, nothing, List.nil_append]

/-! ### No step goes wrong -/

theorem mapM_of_total {α β : Type} {f : α → Option β} {g : α → β} {items : List α}
    (total : ∀ item ∈ items, f item = some (g item)) : items.mapM f = some (items.map g) := by
  induction items with
  | nil => rfl
  | cons head rest ih =>
      rw [List.mapM_cons, total head List.mem_cons_self,
        ih (fun item member => total item (List.mem_cons_of_mem _ member))]
      rfl

/-- Where no chunk ends beyond the words, each thread gets its chunk. -/
theorem thread_ranges_eq (words : start + num_threads * per_thread < 2 ^ 64) :
    ∃ ranges, thread_ranges start stop per_thread num_threads = some ranges ∧
      ranges.flatMap BlockRange.blocks =
        (List.range num_threads).flatMap (chunk start stop per_thread) := by
  refine ⟨(List.range num_threads).map (fun t =>
    ⟨start + t * per_thread, min (start + t * per_thread + per_thread) stop⟩), ?_, ?_⟩
  · apply mapM_of_total
    intro t member
    have before : (t + 1) * per_thread ≤ num_threads * per_thread :=
      Nat.mul_le_mul_right _ (List.mem_range.mp member)
    rw [Nat.succ_mul] at before
    unfold thread_range mul64 add64
    rw [if_pos (by omega)]
    simp only [Option.bind_eq_bind, Option.bind_some]
    rw [if_pos (by omega), Option.bind_some, if_pos (by omega), Option.bind_some]
  · rw [List.flatMap_map]
    rfl

theorem thread_ranges_partition (words : start + num_threads * per_thread < 2 ^ 64)
    (enough : stop - start ≤ num_threads * per_thread) :
    ∃ ranges, thread_ranges start stop per_thread num_threads = some ranges ∧
      Partition ranges start stop ∧ Partition (started ranges) start stop := by
  obtain ⟨ranges, computed, blocks⟩ := @thread_ranges_eq start stop per_thread num_threads words
  rw [chunks_eq enough] at blocks
  refine ⟨ranges, computed, partition_of_blocks blocks, partition_of_blocks ?_⟩
  rw [started_blocks, blocks]

/-- The chunks that are rounded up are enough, and not much more. -/
theorem rounded_up_eq {num_blocks : Nat} (small : num_blocks ≤ 2 ^ 45) (positive : 0 < num_threads)
    (few : num_threads ≤ num_blocks) :
    ∃ per_thread, rounded_up num_blocks num_threads = some per_thread ∧
      num_blocks ≤ num_threads * per_thread ∧ num_threads * per_thread < num_blocks + num_threads := by
  refine ⟨chunk_width num_blocks num_threads, ?_, total_le_chunks num_blocks positive, ?_⟩
  · unfold rounded_up add64 sub64 div64
    rw [if_pos (by omega)]
    simp only [Option.bind_eq_bind, Option.bind_some]
    rw [if_pos (by omega), Option.bind_some, if_neg (by omega)]
    rfl
  · unfold chunk_width
    have split := Nat.div_mul_le_self (num_blocks + num_threads - 1) num_threads
    rw [Nat.mul_comm] at split
    omega

/-! ### The scans -/

theorem recover_database_partition {n threads : Nat} (small : n ≤ 2 ^ 45) (positive : 1 ≤ threads)
    (some_blocks : n ≠ 0) :
    ∃ ranges, recover_database n threads = some ranges ∧ Partition ranges 0 n := by
  have workers : 0 < min n threads := by omega
  have split := Nat.div_add_mod n (min n threads)
  have short := Nat.mod_lt n workers
  have most := Nat.div_le_self n (min n threads)
  have width : min n threads * (n / min n threads + 1) =
      min n threads * (n / min n threads) + min n threads := Nat.mul_succ _ _
  have few : min n threads ≤ n := Nat.min_le_left _ _
  obtain ⟨ranges, computed, partition, -⟩ :=
    @thread_ranges_partition 0 n (n / min n threads + 1) (min n threads) (by omega) (by omega)
  refine ⟨ranges, ?_, partition⟩
  unfold recover_database div64 add64
  dsimp only
  rw [if_neg (by omega)]
  simp only [Option.bind_eq_bind, Option.bind_some]
  rw [if_pos (by omega), Option.bind_some]
  exact computed

theorem recover_tail_partition {start current threads : Nat} (small : current ≤ 2 ^ 45) :
    ∃ ranges, recover_tail_into_cold start current threads = some ranges ∧
      Partition ranges start current := by
  unfold recover_tail_into_cold
  split
  · rename_i nothing
    refine ⟨[], rfl, partition_of_blocks ?_⟩
    rw [show current - start = 0 by omega]
    rfl
  · rename_i blocks
    obtain ⟨per_thread, rounded, enough, most⟩ :=
      @rounded_up_eq (min (current - start) (max 1 threads)) (current - start) (by omega)
        (by omega) (Nat.min_le_left _ _)
    obtain ⟨ranges, computed, -, partition⟩ :=
      @thread_ranges_partition start current per_thread _ (by omega) enough
    refine ⟨started ranges, ?_, partition⟩
    unfold sub64
    rw [if_pos (by omega)]
    simp only [Option.bind_eq_bind, Option.bind_some]
    rw [rounded, Option.bind_some, computed, Option.bind_some]

theorem clear_locks_partition {n threads : Nat} (small : n ≤ 2 ^ 45) :
    ∃ ranges, hiom_clear_all_stale_page_locks n threads = some ranges ∧ Partition ranges 0 n := by
  unfold hiom_clear_all_stale_page_locks
  split
  · rename_i nothing
    refine ⟨[], rfl, partition_of_blocks ?_⟩
    rw [nothing]
    rfl
  · rename_i blocks
    dsimp only
    split
    · refine ⟨_, rfl, partition_of_blocks ?_⟩
      rw [List.flatMap_singleton]
      rfl
    · rename_i several
      obtain ⟨per_thread, rounded, enough, most⟩ :=
        @rounded_up_eq (max 1 (min threads n)) n small (by omega) (by omega)
      obtain ⟨ranges, computed, -, partition⟩ :=
        @thread_ranges_partition 0 n per_thread _ (by omega) enough
      refine ⟨started ranges, ?_, partition⟩
      rw [rounded, Option.bind_eq_bind, Option.bind_some, computed, Option.bind_eq_bind,
        Option.bind_some]

/-- Each scan computes a partition of its blocks, except that `recover_database`
divides by the number of its threads although a database without blocks has
none. -/
theorem scans_partition (scan : Scan) (proper : scan.Proper) :
    (∃ ranges, scan.ranges = some ranges ∧ Partition ranges scan.start scan.stop) ↔
      ∀ threads, scan ≠ .recover_database 0 threads := by
  obtain ⟨stop_le, threads_pos⟩ := proper
  cases scan with
  | recover_database n threads =>
      constructor
      · rintro ⟨ranges, computed, partition⟩ other same
        cases same
        have divides : Scan.ranges (.recover_database 0 threads) = none := by
          rfl
        rw [divides] at computed
        cases computed
      · intro different
        apply recover_database_partition stop_le threads_pos
        intro empty
        have none_used : n = 0 := empty
        subst none_used
        exact different threads rfl
  | recover_tail_into_cold start current threads =>
      constructor
      · rintro - other same
        cases same
      · intro _
        exact recover_tail_partition stop_le
  | hiom_clear_all_stale_page_locks n threads =>
      constructor
      · rintro - other same
        cases same
      · intro _
        exact clear_locks_partition stop_le

theorem scans_partition_seven_blocks :
    (∃ ranges, (Scan.recover_database 7 3).ranges = some ranges ∧ Partition ranges 0 7) ↔
      ∀ threads, Scan.recover_database 7 3 ≠ .recover_database 0 threads :=
  scans_partition (.recover_database 7 3)
    ⟨by decide, by decide⟩

/-- A database that was created and closed again, opened with 32 threads. -/
theorem empty_database_divides_by_zero :
    (Scan.recover_database 0 32).Proper ∧ (Scan.recover_database 0 32).ranges = none ∧
      ¬∃ ranges, (Scan.recover_database 0 32).ranges = some ranges ∧ Partition ranges 0 0 := by
  have divides : (Scan.recover_database 0 32).ranges = none := by
    rfl
  refine ⟨⟨by decide, by decide⟩, divides, ?_⟩
  rintro ⟨ranges, computed, -⟩
  rw [divides] at computed
  cases computed

end Hiom.Recovery.Ranges
