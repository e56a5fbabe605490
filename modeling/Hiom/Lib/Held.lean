import Mathlib

/-!
One word of persistent memory that several threads raise and write back. The
word keeps all values it has held, the latest first, and how many of the oldest
a completed write-back has ruled out: a power failure leaves one of the others.
A write-back that begins now rules out, once it is complete, the values from
before its beginning.
-/

namespace Hiom

/-- `now` is the present value, `past` those before it, the latest first. -/
structure Held where
  now : Nat
  past : List Nat
  ruled_out : Nat

namespace Held

def settled (now : Nat) : Held := ⟨now, [], 0⟩

def store (held : Held) (value : Nat) : Held :=
  { held with now := value, past := held.now :: held.past }

/-- The values from position `start` on, counted from the oldest. -/
def since (held : Held) (start : Nat) : List Nat :=
  (held.now :: held.past).take (held.past.length + 1 - start)

def begin (held : Held) : Nat := held.past.length

def finish (held : Held) (start : Nat) : Held :=
  { held with ruled_out := max held.ruled_out start }

/-- The values that a power failure may leave. -/
def survivors (held : Held) : List Nat := held.since held.ruled_out

variable {held : Held} {start later value : Nat}

theorem since_antitone (order : start ≤ later) (member : value ∈ held.since later) :
    value ∈ held.since start :=
  List.take_subset_take_left _ (by omega) member

theorem mem_since_store {new : Nat} (member : value ∈ (held.store new).since start) :
    value = new ∨ value ∈ held.since start := by
  simp only [since, store, List.length_cons] at member ⊢
  by_cases all : held.past.length + 1 + 1 ≤ start
  · rw [Nat.sub_eq_zero_of_le all, List.take_zero] at member
    cases member
  · rw [Nat.succ_sub (by omega), List.take_succ_cons, List.mem_cons] at member
    exact member

theorem mem_since_begin (member : value ∈ held.since held.begin) : value = held.now := by
  rw [since, begin, Nat.add_sub_cancel_left] at member
  simpa using member

theorem mem_survivors_settled (member : value ∈ (settled start).survivors) : value = start := by
  simpa [survivors, since, settled] using member

def Above (held : Held) (start bound : Nat) : Prop :=
  bound < held.now ∧ ∀ value ∈ held.since start, bound < value

theorem Above.store {bound new : Nat} (above : held.Above start bound) (raised : held.now < new) :
    (held.store new).Above start bound := by
  refine ⟨Nat.lt_trans above.1 raised, fun value member => ?_⟩
  rcases mem_since_store member with rfl | member
  · exact Nat.lt_trans above.1 raised
  · exact above.2 value member

theorem Above.mono {bound : Nat} (above : held.Above start bound) (order : start ≤ later) :
    held.Above later bound :=
  ⟨above.1, fun value member => above.2 value (since_antitone order member)⟩

theorem above_begin {bound : Nat} (below : bound < held.now) : held.Above held.begin bound :=
  ⟨below, fun _ member => (mem_since_begin member).symm ▸ below⟩

theorem above_settled {bound now : Nat} (below : bound < now) : (settled now).Above 0 bound :=
  ⟨below, fun _ member => (mem_survivors_settled member).symm ▸ below⟩

end Held

end Hiom
