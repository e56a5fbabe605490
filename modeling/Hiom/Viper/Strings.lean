import Hiom.Lib.Bytes
import Hiom.Viper.Records

/-!
Viper's records of variable size: how `put` lays them out at the end of a page,
and how they are read back. Blocks are not reclaimed.
-/

namespace Hiom.Viper.Records.Strings

open Bytes (patch slice)

def v_page_size : Nat := 4096

def num_pages_per_block : Nat := 6

def METADATA_SIZE : Nat := 4

def DATA_SIZE : Nat := v_page_size - METADATA_SIZE

def meta_size : Nat := 4

abbrev Text := List (BitVec 8)

/-! ### Entries -/

structure VarSizeEntry where
  is_set : Bool
  key_size : Nat
  value_size : Nat

namespace VarSizeEntry

def of_sizes (keySize valueSize : Nat) : VarSizeEntry :=
  ⟨true, keySize % 2 ^ 15, valueSize % 2 ^ 16⟩

def size_info (entry : VarSizeEntry) : Nat :=
  entry.is_set.toNat + entry.key_size * 2 + entry.value_size * 2 ^ 16

def of_size_info (size_info : Nat) : VarSizeEntry :=
  ⟨size_info % 2 == 1, size_info / 2 % 2 ^ 15, size_info / 2 ^ 16 % 2 ^ 16⟩

def bytes (entry : VarSizeEntry) : Text :=
  [.ofNat 8 entry.size_info, .ofNat 8 (entry.size_info / 2 ^ 8),
    .ofNat 8 (entry.size_info / 2 ^ 16), .ofNat 8 (entry.size_info / 2 ^ 24)]

def read (data : Nat → BitVec 8) (pos : Nat) : VarSizeEntry :=
  .of_size_info ((data pos).toNat + (data (pos + 1)).toNat * 2 ^ 8 +
    (data (pos + 2)).toNat * 2 ^ 16 + (data (pos + 3)).toNat * 2 ^ 24)

end VarSizeEntry

/-! ### Pages -/

structure VPage where
  next_insert_offset : Nat
  version_lock : version_lock_t
  data : Nat → BitVec 8

abbrev VPageBlock := Nat → VPage

namespace VPage

def init (page : VPage) : VPage :=
  { page with version_lock := USED_BIT, next_insert_offset := 0 }

def lock (page : VPage) : Option VPage :=
  let lock_value := page.version_lock.unlocked
  if page.version_lock = lock_value then some { page with version_lock := lock_value + 1#8 }
  else none

def unlock (page : VPage) : VPage := { page with version_lock := page.version_lock.released }

def memcpy (page : VPage) (pos : Nat) (entry : VarSizeEntry) (text : Text) : VPage :=
  { page with data := patch page.data pos (entry.bytes ++ text) }

def set_next_insert_offset (page : VPage) (next : Nat) : VPage :=
  { page with next_insert_offset := next % 2 ^ 16 }

def invalidate_record (page : VPage) (data_offset : Nat) : VPage :=
  let var_entry := VarSizeEntry.read page.data data_offset
  { page with data := patch page.data data_offset { var_entry with is_set := false }.bytes }

end VPage

/-! ### Reads -/

structure Raw where
  page : Nat
  pos : Nat

structure VarEntryAccessor where
  is_set : Bool
  key_size : Nat
  value_size : Nat
  key_data : Raw
  value_data : Raw

namespace VarEntryAccessor

def of_entry (v_block : VPageBlock) (raw_entry : Raw) : VarEntryAccessor :=
  let entry := VarSizeEntry.read (v_block raw_entry.page).data raw_entry.pos
  let key_data := raw_entry.pos + meta_size
  ⟨entry.is_set, entry.key_size, entry.value_size, ⟨raw_entry.page, key_data⟩,
    ⟨raw_entry.page, key_data + entry.key_size⟩⟩

def of_entries (v_block : VPageBlock) (raw_key_entry raw_value_entry : Raw) : VarEntryAccessor :=
  let value_entry := VarSizeEntry.read (v_block raw_value_entry.page).data raw_value_entry.pos
  { of_entry v_block raw_key_entry with
    value_size := value_entry.value_size
    value_data := ⟨raw_value_entry.page, raw_value_entry.pos + meta_size⟩ }

def key (v_block : VPageBlock) (accessor : VarEntryAccessor) : Text :=
  slice (v_block accessor.key_data.page).data accessor.key_data.pos accessor.key_size

def value (v_block : VPageBlock) (accessor : VarEntryAccessor) : Text :=
  slice (v_block accessor.value_data.page).data accessor.value_data.pos accessor.value_size

end VarEntryAccessor

section

variable (v_blocks : Nat → VPageBlock)

/-- The accessor that the readers end with. There is none when they go to a page
beyond the block. -/
def var_entry (offset : KVOffset) : Option VarEntryAccessor :=
  let v_block := v_blocks offset.block_number
  let raw_data := ⟨offset.page_number, offset.data_offset⟩
  let var_entry := VarEntryAccessor.of_entry v_block raw_data
  if var_entry.value_size = 0 then
    if offset.page_number + 1 < num_pages_per_block then
      some (.of_entries v_block raw_data ⟨offset.page_number + 1, 0⟩)
    else none
  else some var_entry

def get_const_entry_from_offset (offset : KVOffset) : Option (Text × Text) := do
  let var_entry ← var_entry v_blocks offset
  some (var_entry.key (v_blocks offset.block_number), var_entry.value (v_blocks offset.block_number))

/-- It answers nothing when the page is locked. -/
def get_value_from_offset (offset : KVOffset) : Option (Option Text) :=
  if (v_blocks offset.block_number offset.page_number).version_lock.is_locked then some none
  else do
    let var_entry ← var_entry v_blocks offset
    some (some (var_entry.value (v_blocks offset.block_number)))

def check_key_equality (key : Text) (offset_to_compare : KVOffset) : Option Bool :=
  if offset_to_compare.is_tombstone then some false
  else do
    let entry ← get_const_entry_from_offset v_blocks offset_to_compare
    some (entry.1 == key)

end

/-! ### Clients -/

structure Pool where
  v_blocks : Nat → VPageBlock
  num_v_blocks : Nat
  current_block_page : KVOffset

structure Position where
  v_block_number : Nat
  v_page_number : Nat
  num_v_pages_processed : Nat

structure Writer extends Pool, Position

namespace Writer

def page (writer : Writer) (bn pn : Nat) : VPage := writer.v_blocks bn pn

def set_page (writer : Writer) (bn pn : Nat) (page : VPage) : Writer :=
  { writer with
    v_blocks := Function.update writer.v_blocks bn (Function.update (writer.v_blocks bn) pn page) }

def v_page (writer : Writer) : VPage := writer.page writer.v_block_number writer.v_page_number

def set_v_page (writer : Writer) (page : VPage) : Writer :=
  writer.set_page writer.v_block_number writer.v_page_number page

def set_current (writer : Writer) (block_page : KVOffset) : Writer :=
  { writer with current_block_page := block_page }

/-- It spins until the block has been mapped. A block of texts is begun at its
first page. -/
def get_new_block (writer : Writer) : Option (KVOffset × Writer) :=
  let client_block := writer.current_block_page.block_number
  if writer.num_v_blocks ≤ client_block then none
  else
    some (writer.current_block_page, writer.set_current (.of_parts (client_block + 1) 0 0))

def mark_block (writer : Writer) (bn : Nat) (mark : version_lock_t → version_lock_t) : Writer :=
  writer.set_page bn 0
    { writer.page bn 0 with version_lock := mark (writer.page bn 0).version_lock }

def move_to (writer : Writer) (bn pn processed : Nat) : Writer :=
  { writer with
    v_block_number := bn
    v_page_number := pn
    num_v_pages_processed := processed }

def leave_block (writer : Writer) : Option Nat → Writer
  | some bn => writer.mark_block bn (· &&& NO_CLIENT_BIT)
  | none => writer

def get_block_based_access (v_block : Option Nat) (writer : Writer) : Option Writer := do
  let (new_block, writer) ← writer.get_new_block
  let writer := (writer.leave_block v_block).move_to new_block.block_number new_block.page_number 0
  let writer := writer.set_v_page writer.v_page.init
  some (writer.mark_block writer.v_block_number (· ||| CLIENT_BIT))

def get_new_var_size_access_information (writer : Writer) : Option Writer := do
  let writer ← writer.get_block_based_access none
  some (writer.set_v_page (writer.v_page.set_next_insert_offset 0))

def next_page (writer : Writer) : Option Writer :=
  let processed := writer.num_v_pages_processed + 1
  if processed = num_pages_per_block then
    writer.get_block_based_access (some writer.v_block_number)
  else
    some (writer.move_to writer.v_block_number
      ((writer.v_page_number + 1) % num_pages_per_block) processed)

def update_access_information (writer : Writer) : Option Writer := do
  let writer ← writer.next_page
  some (writer.set_v_page writer.v_page.init)

def update_var_size_page_information (writer : Writer) : Option Writer := do
  let writer ← writer.update_access_information
  some (writer.set_v_page (writer.v_page.set_next_insert_offset 0))

/-! ### Writes -/

def insert_whole (key value : Text) (insert_pos : Nat) (writer : Writer) : Writer :=
  let entry := VarSizeEntry.of_sizes key.length value.length
  let page := writer.v_page.memcpy insert_pos entry
    (key.take entry.key_size ++ value.take entry.value_size)
  writer.set_v_page (page.set_next_insert_offset
    (page.next_insert_offset + (meta_size + (entry.key_size + entry.value_size))))

def insert_split (key value : Text) (bn pn insert_pos : Nat) (writer : Writer) : Writer :=
  let entry := VarSizeEntry.of_sizes key.length value.length
  let value_entry := VarSizeEntry.of_sizes 0 value.length
  let page := writer.v_page.memcpy 0 value_entry (value.take value_entry.value_size)
  let writer := writer.set_v_page (page.set_next_insert_offset
    (page.next_insert_offset + (meta_size + value_entry.value_size)))
  writer.set_page bn pn
    (((writer.page bn pn).memcpy insert_pos { entry with value_size := 0 }
      (key.take entry.key_size)).set_next_insert_offset DATA_SIZE)

def close_page (bn pn insert_pos : Nat) (writer : Writer) : Writer :=
  let page := writer.page bn pn
  let page :=
    if METADATA_SIZE + insert_pos + meta_size ≤ v_page_size then
      page.memcpy insert_pos (.of_sizes 0 0) []
    else page
  writer.set_page bn pn (page.set_next_insert_offset DATA_SIZE)

def fits (insert_pos length : Nat) : Bool :=
  METADATA_SIZE + insert_pos + meta_size + length ≤ v_page_size

/-- `put` until it asks the index for the old offset. A record that is longer
than the data of a page would be written over the header of the page after it:
there is no answer. -/
def insert (key value : Text) (writer : Writer) : Option (KVOffset × Writer) := do
  let page ← writer.v_page.lock
  let start := writer.set_v_page page
  let entry := VarSizeEntry.of_sizes key.length value.length
  let insert_pos := start.v_page.next_insert_offset
  let bn := start.v_block_number
  let pn := start.v_page_number
  if fits insert_pos (entry.key_size + entry.value_size) then
    some (.of_parts bn pn insert_pos, start.insert_whole key value insert_pos)
  else do
    let writer ← start.update_var_size_page_information
    let force_new_page := writer.v_block_number ≠ bn
    if fits insert_pos entry.key_size ∧ ¬force_new_page then
      if fits 0 entry.value_size then
        some (.of_parts bn pn insert_pos, writer.insert_split key value bn pn insert_pos)
      else none
    else if fits 0 (entry.key_size + entry.value_size) then
      some (.of_parts writer.v_block_number writer.v_page_number 0,
        (writer.close_page bn pn insert_pos).insert_whole key value 0)
    else none

/-- On the client's own page it takes no lock. -/
def free_occupied_slot (writer : Writer) (offset_to_delete : KVOffset) : Option Writer :=
  let bn := offset_to_delete.block_number
  let pn := offset_to_delete.page_number
  if writer.v_block_number = bn ∧ writer.v_page_number = pn then
    some (writer.set_page bn pn
      ((writer.page bn pn).invalidate_record offset_to_delete.data_offset))
  else do
    let page ← (writer.page bn pn).lock
    some (writer.set_page bn pn (page.invalidate_record offset_to_delete.data_offset).unlock)

/-- `old_offset` is what the index has had for the key. -/
def put (key value : Text) (old_offset : KVOffset) (writer : Writer) : Option (KVOffset × Writer) := do
  let bn := writer.v_block_number
  let pn := writer.v_page_number
  let (var_offset, writer) ← writer.insert key value
  let writer := writer.set_page bn pn (writer.page bn pn).unlock
  let writer ← if old_offset.is_tombstone then some writer else writer.free_occupied_slot old_offset
  some (var_offset, writer)

def remove (kv_offset : KVOffset) (writer : Writer) : Option (Bool × Writer) :=
  if kv_offset.is_tombstone then some (false, writer)
  else do
    let writer ← writer.free_occupied_slot kv_offset
    some (true, writer)

end Writer

end Hiom.Viper.Records.Strings
