import Mathlib

/-!
A range that several workers split into chunks of one width, of which the last
may be short and those behind it empty.
-/

namespace Hiom

def chunk (start stop width t : Nat) : List Nat :=
  let lo := start + t * width
  List.range' lo (min (lo + width) stop - lo)

def chunk_width (total workers : Nat) : Nat := (total + workers - 1) / workers

variable {start stop width workers : Nat}

theorem total_le_chunks (total : Nat) (positive : 0 < workers) :
    total ≤ workers * chunk_width total workers := by
  unfold chunk_width
  have split := Nat.div_add_mod (total + workers - 1) workers
  have short := Nat.mod_lt (total + workers - 1) positive
  omega

/-- The first chunks together, in their order. -/
theorem chunks_take (start stop width workers : Nat) :
    (List.range workers).flatMap (chunk start stop width) =
      List.range' start (min (workers * width) (stop - start)) := by
  induction workers with
  | zero => simp
  | succ workers ih =>
      rw [List.range_succ, List.flatMap_append, ih, List.flatMap_singleton, Nat.succ_mul]
      dsimp only [chunk]
      by_cases inside : workers * width ≤ stop - start
      · have whole : min (workers * width) (stop - start) = workers * width := by omega
        rw [whole, List.range'_append_1]
        congr 1
        omega
      · have before : min (workers * width) (stop - start) = stop - start := by omega
        have rest : min (start + workers * width + width) stop - (start + workers * width) = 0 := by
          omega
        rw [before, rest, List.range'_zero, List.append_nil]
        congr 1
        omega

/-- Enough chunks are the range. -/
theorem chunks_eq (enough : stop - start ≤ workers * width) :
    (List.range workers).flatMap (chunk start stop width) = List.range' start (stop - start) := by
  rw [chunks_take, Nat.min_eq_right enough]

end Hiom
