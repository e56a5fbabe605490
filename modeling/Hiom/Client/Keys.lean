import Mathlib

/-!
What the index knows of a key: its identity in the cold tier and the two
fingerprints, slices of one hash.
-/

namespace Hiom

/-- `hash` is `cceh::h` of a key with the given id: for keys of up to eight
bytes the id is the key itself, for longer ones it is their hash. -/
structure Keys (K : Type) where
  key_id_of : K → Nat
  hash : Nat → Nat

namespace Keys

variable {K : Type} (keys : Keys K)

def h (key : K) : Nat := keys.hash (keys.key_id_of key) % 2 ^ 64

/-- Biased away from the fingerprint of an empty slot. -/
def key_fingerprint (key : K) : Nat :=
  let fp := keys.h key % 2 ^ 32
  if fp = 0 then 1 else fp

/-- `key_fingerprint64` of a key with the id. -/
def route (key_id : Nat) : Nat :=
  let h := keys.hash key_id % 2 ^ 64
  if h = 0 then 1 else h

def key_fingerprint64 (key : K) : Nat := if keys.h key = 0 then 1 else keys.h key

theorem key_fingerprint64_eq (key : K) :
    keys.key_fingerprint64 key = keys.route (keys.key_id_of key) := rfl

theorem key_fingerprint_pos (key : K) : keys.key_fingerprint key ≠ 0 := by
  dsimp only [key_fingerprint]
  split
  · exact Nat.one_ne_zero
  · rename_i occupied
    exact occupied

end Keys

end Hiom
