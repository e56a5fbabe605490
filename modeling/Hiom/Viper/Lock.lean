import Mathlib

/-!
The byte that locks a VPage: six bits of version, of which the lowest is the
lock, then the bit of a used page and the bit of an owned block.
-/

namespace Hiom.Viper

abbrev version_lock_t := BitVec 8

def CLIENT_BIT : version_lock_t := 0b10000000#8
def NO_CLIENT_BIT : version_lock_t := 0b01111111#8
def USED_BIT : version_lock_t := 0b01000000#8
def UNLOCKED_BIT : version_lock_t := 0b11111110#8

namespace version_lock_t

def is_locked (lock : version_lock_t) : Bool := lock &&& 1#8 == 1#8

def is_used (lock : version_lock_t) : Bool := lock &&& USED_BIT == USED_BIT

/-- What a locker expects, and what repairing a stale lock leaves. -/
def unlocked (lock : version_lock_t) : version_lock_t := lock &&& UNLOCKED_BIT

/-- What `unlock` stores after it has loaded `current_version`. -/
def released (current_version : version_lock_t) : version_lock_t :=
  ((current_version + 1#8) % USED_BIT ||| USED_BIT) ||| (current_version &&& CLIENT_BIT)

/-- The six bits that every lock and unlock counts up. -/
def version (lock : version_lock_t) : Nat := lock.toNat % 64

theorem locked_iff (lock : version_lock_t) : lock.is_locked = true ↔ lock.version % 2 = 1 := by
  revert lock
  decide

/-- Whether a byte is locked is part of its version. -/
theorem locked_congr {lock other : version_lock_t} (same : lock.version = other.version) :
    lock.is_locked = other.is_locked := by
  rw [Bool.eq_iff_iff, locked_iff, locked_iff, same]

theorem locked_version {lock : version_lock_t} (free : lock.is_locked = false) :
    (lock + 1#8).version = lock.version + 1 ∧ (lock + 1#8).is_locked = true := by
  revert lock
  decide

theorem unlocked_free (lock : version_lock_t) : lock.unlocked.is_locked = false := by
  revert lock
  decide

theorem released_version (lock : version_lock_t) :
    lock.released.version = (lock.version + 1) % 64 := by
  revert lock
  decide

theorem released_free {lock : version_lock_t} (locked : lock.is_locked = true) :
    lock.released.is_locked = false := by
  revert lock
  decide

theorem client_version (lock : version_lock_t) :
    (lock ||| CLIENT_BIT).version = lock.version ∧ (lock &&& NO_CLIENT_BIT).version = lock.version := by
  revert lock
  decide

theorem unlocked_self {lock : version_lock_t} (free : lock.is_locked = false) :
    lock.unlocked = lock := by
  revert lock
  decide

theorem lock_taken {lock : version_lock_t} (taken : lock = lock.unlocked) :
    lock.is_locked = false := by
  revert lock
  decide

/-- Locking leaves the bit of a used page alone, and unlocking sets it. -/
theorem used_kept (lock : version_lock_t) :
    (lock.is_locked = false → (lock + 1#8).is_used = lock.is_used) ∧
      lock.released.is_used = true := by
  revert lock
  decide

theorem client_used (lock : version_lock_t) :
    (lock ||| CLIENT_BIT).is_used = lock.is_used ∧ (lock &&& NO_CLIENT_BIT).is_used = lock.is_used := by
  revert lock
  decide

theorem version_lt (lock : version_lock_t) : lock.version < 64 := Nat.mod_lt _ (by decide)

end version_lock_t

end Hiom.Viper
