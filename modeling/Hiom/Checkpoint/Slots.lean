import Hiom.Lib.Machine
import Hiom.Lib.Pmem

/-!
The checkpoint file: two slots of one cache line and a pointer to the valid
one. A write fills the other slot, makes it durable, and then turns the
pointer. Words are those of the file, eight bytes each.
-/

namespace Hiom.Checkpoint

structure CheckpointRecord where
  magic : Nat
  seq : Nat
  flushed_count : Nat
  vpage_frontier : Nat
  cold_size : Nat
  reserved : Nat × Nat
  summary_hash : Nat
  deriving DecidableEq

def kMagic : Nat := 0x484f4d5f43485054

namespace CheckpointRecord

def word (record : CheckpointRecord) : Nat → Nat
  | 0 => record.magic
  | 1 => record.seq
  | 2 => record.flushed_count
  | 3 => record.vpage_frontier
  | 4 => record.cold_size
  | 5 => record.reserved.1
  | 6 => record.reserved.2
  | _ => record.summary_hash

def of_words (word : Nat → Nat) : CheckpointRecord :=
  ⟨word 0, word 1, word 2, word 3, word 4, (word 5, word 6), word 7⟩

def byte (record : CheckpointRecord) (i : Nat) : Nat :=
  (record.word (i / 8) >>> (8 * (i % 8))) % 256

/-- FNV-1a over everything before `summary_hash`. -/
@[irreducible]
def compute_hash (record : CheckpointRecord) : Nat :=
  (List.range 56).foldl (fun h i => ((h ^^^ record.byte i) * 0x100000001b3) % 2 ^ 64)
    0xcbf29ce484222325

def sealed (record : CheckpointRecord) : CheckpointRecord :=
  let named := { record with magic := kMagic }
  { named with summary_hash := named.compute_hash }

end CheckpointRecord

def kValidNone : Nat := 2 ^ 64 - 1
def kSlotA : Nat := 0
def kSlotB : Nat := 1
def kSlotAOffset : Nat := 64
def kSlotASize : Nat := 128
def kSlotBOffset : Nat := 64 + kSlotASize

def slot_ptr (which : Nat) : Nat := (if which = kSlotA then kSlotAOffset else kSlotBOffset) / 8

def valid_pointer : Nat := 0

def line (word : Nat) : Nat := word / 8

def slot_words (which : Nat) : List Nat := (List.range 8).map (slot_ptr which + ·)

def read_slot (now : Nat → Nat) (which : Nat) : Option CheckpointRecord :=
  let record := CheckpointRecord.of_words (fun i => now (slot_ptr which + i))
  if record.magic ≠ kMagic then none
  else if record.summary_hash ≠ record.compute_hash then none
  else some record

def read_valid (now : Nat → Nat) : Option CheckpointRecord :=
  let vp := now valid_pointer
  if vp = kValidNone then none
  else if vp ≠ kSlotA ∧ vp ≠ kSlotB then none
  else
    match read_slot now vp with
    | some record => some record
    | none => read_slot now (if vp = kSlotA then kSlotB else kSlotA)

inductive Stage where
  | closed
  | idle
  | copy (record : CheckpointRecord) (target i : Nat)
  | fence_slot (record : CheckpointRecord) (target : Nat)
  | flip (record : CheckpointRecord) (target : Nat)
  | flush_pointer (record : CheckpointRecord) (target : Nat)
  | fence_pointer (record : CheckpointRecord) (target : Nat)

/-- `seq` is HiOM's `seq_`. `completed` is the record of the last write that
returned, `begun` are those of the writes that began since. -/
structure State where
  pmem : Pmem Nat
  seq : Nat
  stage : Stage
  completed : Option CheckpointRecord
  begun : List CheckpointRecord

/-- `try_write_checkpoint` is a `write` by HiOM. A crash chooses for each word
which of the values that may survive does. -/
inductive Action where
  | write (record : CheckpointRecord)
  | try_write_checkpoint (flushed_count vpage_frontier cold_size proto : Nat)
  | move
  | crash (choice : Nat → Nat)
  | open

def State.begin (state : State) (record : CheckpointRecord) : State :=
  let cur := state.pmem.now valid_pointer
  { state with
    stage := .copy record.sealed (if cur = kSlotA then kSlotB else kSlotA) 0
    begun := record.sealed :: state.begun }

def State.move (state : State) : Option State :=
  match state.stage with
  | .closed | .idle => none
  | .copy record target i =>
      if i < 8 then
        some { state with
          pmem := state.pmem.store (slot_ptr target + i) (record.word i)
          stage := .copy record target (i + 1) }
      else
        some { state with
          pmem := state.pmem.flush line (slot_words target)
          stage := .fence_slot record target }
  | .fence_slot record target =>
      some { state with pmem := state.pmem.fence, stage := .flip record target }
  | .flip record target =>
      some { state with
        pmem := state.pmem.store valid_pointer target
        stage := .flush_pointer record target }
  | .flush_pointer record target =>
      some { state with
        pmem := state.pmem.flush line [valid_pointer]
        stage := .fence_pointer record target }
  | .fence_pointer record _ =>
      some { state with
        pmem := state.pmem.fence
        stage := .idle
        completed := some record
        begun := [] }

def State.step (state : State) : Action → Option State
  | .write record =>
      match state.stage with
      | .idle => some (state.begin record)
      | _ => none
  | .try_write_checkpoint flushed_count vpage_frontier cold_size proto =>
      match state.stage with
      | .idle =>
          some ({ state with seq := state.seq + 1 }.begin
            ⟨0, state.seq + 1, flushed_count, vpage_frontier, cold_size, (proto, 0), 0⟩)
      | _ => none
  | .move => state.move
  | .crash choice =>
      some { state with pmem := .settled (state.pmem.image choice), stage := .closed }
  | .open =>
      match state.stage with
      | .closed =>
          -- a new process starts from zero unless there is a record
          some { state with
            stage := .idle
            seq := ((read_valid state.pmem.now).map CheckpointRecord.seq).getD 0 }
      | _ => none

def State.created : State where
  pmem := .settled (fun word => if word = valid_pointer then kValidNone else 0)
  seq := 0
  stage := .idle
  completed := none
  begun := []

def machine : Machine State Action where
  initial := fun state => state = State.created
  step := State.step

/-! ### Slots -/

def Slot (which : Nat) : Prop := which = kSlotA ∨ which = kSlotB

def Holds (pmem : Pmem Nat) (which : Nat) (record : CheckpointRecord) : Prop :=
  ∀ i, i < 8 → pmem.now (slot_ptr which + i) = record.word i ∧ pmem.Clean (slot_ptr which + i)

variable {pmem : Pmem Nat} {which target i j p : Nat} {record : CheckpointRecord}
  {shown : Option CheckpointRecord}

theorem of_words_word (record : CheckpointRecord) :
    CheckpointRecord.of_words record.word = record := rfl

theorem compute_hash_congr {other : CheckpointRecord}
    (same : ∀ n, n < 7 → record.word n = other.word n) :
    record.compute_hash = other.compute_hash := by
  unfold CheckpointRecord.compute_hash
  refine List.foldl_ext _ _ _ (fun h i member => ?_)
  have inside : i / 8 < 7 := by
    have bound := List.mem_range.mp member
    omega
  rw [CheckpointRecord.byte, CheckpointRecord.byte, same _ inside]

theorem word_below_hash (record : CheckpointRecord) (hash n : Nat) (bound : n < 7) :
    record.word n = ({ record with summary_hash := hash } : CheckpointRecord).word n := by
  match n, bound with
  | 0, _ | 1, _ | 2, _ | 3, _ | 4, _ | 5, _ | 6, _ => rfl

/-- The hash does not depend on the field that it is stored in. -/
theorem hash_of_sealed (record : CheckpointRecord) :
    record.sealed.summary_hash = record.sealed.compute_hash :=
  compute_hash_congr (word_below_hash { record with magic := kMagic } _)

theorem of_words_congr (word : Nat → Nat) (words : ∀ i, i < 8 → word i = record.word i) :
    CheckpointRecord.of_words word = record := by
  rw [← of_words_word record]
  simp only [CheckpointRecord.of_words, words _ (show 0 < 8 by decide),
    words _ (show 1 < 8 by decide), words _ (show 2 < 8 by decide),
    words _ (show 3 < 8 by decide), words _ (show 4 < 8 by decide),
    words _ (show 5 < 8 by decide), words _ (show 6 < 8 by decide),
    words _ (show 7 < 8 by decide)]

def Filled (record : CheckpointRecord) : Prop :=
  record.magic = kMagic ∧ record.summary_hash = record.compute_hash

theorem filled_sealed (record : CheckpointRecord) : Filled record.sealed :=
  ⟨rfl, hash_of_sealed record⟩

theorem read_slot_words (now : Nat → Nat) (filled : Filled record)
    (words : ∀ i, i < 8 → now (slot_ptr which + i) = record.word i) :
    read_slot now which = some record := by
  unfold read_slot
  rw [of_words_congr _ words]
  dsimp only
  rw [if_neg (not_not.mpr filled.1), if_neg (not_not.mpr filled.2)]

theorem slot_ptr_apart (slot : Slot which) (other : Slot target) (different : which ≠ target)
    (low : i < 8) (low_other : j < 8) : slot_ptr which + i ≠ slot_ptr target + j := by
  rcases slot with rfl | rfl <;> rcases other with rfl | rfl
  · exact absurd rfl different
  · simp [slot_ptr, kSlotA, kSlotB, kSlotAOffset, kSlotBOffset, kSlotASize]
    omega
  · simp [slot_ptr, kSlotA, kSlotB, kSlotAOffset, kSlotBOffset, kSlotASize]
    omega
  · exact absurd rfl different

theorem slot_ptr_pos (which i : Nat) : slot_ptr which + i ≠ valid_pointer := by
  have away : 8 ≤ slot_ptr which := by
    unfold slot_ptr
    split <;> decide
  unfold valid_pointer
  omega

theorem Holds.store {word value : Nat} (holds : Holds pmem which record)
    (apart : ∀ i, i < 8 → slot_ptr which + i ≠ word) :
    Holds (pmem.store word value) which record := by
  intro i low
  obtain ⟨now, clean⟩ := holds i low
  exact ⟨(if_neg (apart i low)).trans now, clean.store value (apart i low)⟩

theorem Holds.flush (holds : Holds pmem which record) (words : List Nat) :
    Holds (pmem.flush line words) which record := fun i low =>
  ⟨(holds i low).1, (holds i low).2.flush words⟩

theorem Holds.fence (holds : Holds pmem which record) : Holds pmem.fence which record :=
  fun i low => ⟨(holds i low).1, (holds i low).2.fence⟩

theorem Holds.image (holds : Holds pmem which record) (choice : Nat → Nat) :
    Holds (.settled (pmem.image choice)) which record := fun i low =>
  ⟨((holds i low).2.image choice).trans (holds i low).1, Pmem.settled_clean _ _⟩

/-! ### What the pointer selects -/

/-- With the value `p` in the pointer, `shown` is what is read. -/
def Selects (pmem : Pmem Nat) (p : Nat) : Option CheckpointRecord → Prop
  | none => p = kValidNone
  | some record => Slot p ∧ Holds pmem p record ∧ Filled record

theorem Selects.read_valid (selects : Selects pmem (pmem.now valid_pointer) shown) :
    read_valid pmem.now = shown := by
  unfold Checkpoint.read_valid
  cases shown with
  | none => exact if_pos selects
  | some record =>
      obtain ⟨slot, holds, filled⟩ := selects
      have read := read_slot_words pmem.now filled (fun i low => (holds i low).1)
      have some_slot : ¬pmem.now valid_pointer = kValidNone := by
        rcases slot with a | b
        · rw [a]
          decide
        · rw [b]
          decide
      dsimp only
      rw [if_neg some_slot, if_neg (fun neither => slot.elim neither.1 neither.2), read]

theorem Selects.store {word value : Nat} (selects : Selects pmem p shown)
    (apart : Slot p → ∀ i, i < 8 → slot_ptr p + i ≠ word) :
    Selects (pmem.store word value) p shown := by
  cases shown with
  | none => exact selects
  | some record => exact ⟨selects.1, selects.2.1.store (apart selects.1), selects.2.2⟩

theorem Selects.flush (selects : Selects pmem p shown) (words : List Nat) :
    Selects (pmem.flush line words) p shown := by
  cases shown with
  | none => exact selects
  | some record => exact ⟨selects.1, selects.2.1.flush words, selects.2.2⟩

theorem Selects.fence (selects : Selects pmem p shown) : Selects pmem.fence p shown := by
  cases shown with
  | none => exact selects
  | some record => exact ⟨selects.1, selects.2.1.fence, selects.2.2⟩

theorem Selects.image (selects : Selects pmem p shown) (choice : Nat → Nat) :
    Selects (.settled (pmem.image choice)) p shown := by
  cases shown with
  | none => exact selects
  | some record => exact ⟨selects.1, selects.2.1.image choice, selects.2.2⟩

end Hiom.Checkpoint
