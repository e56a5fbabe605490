import Hiom.Lib.Pmem
import Hiom.Cold.Growth

/-!
The accesses of the cold tier on persistent memory, and what a power failure
leaves of a region. The code stores an occupancy bit only when the entry it
publishes can no longer be lost, so whatever subset of the other stores
survives, every entry that is visible afterwards is one that was visible before
the call or one that the call was asked to write.
-/

namespace Hiom.ColdTier

def pmemSem (geo : Geometry) (rid : Nat) :
    Prog.Semantics (fun _ : Access => Nat) (Pmem Word) :=
  fun access pmem =>
    (access.reply pmem.now,
      match access with
      | .flush words => pmem.flush (Word.line geo rid) words
      | .fence => pmem.fence
      | access =>
          match access.write? pmem.now with
          | some (word, value) => pmem.store word value
          | none => pmem)

variable {geo : Geometry} {rid : Nat} {bid_of : Nat → Nat} {pmem : Pmem Word}

/-- What is visible at once does not depend on what is durable. -/
theorem pmemSem_projects (geo : Geometry) (rid : Nat) :
    Prog.Projects (pmemSem geo rid) memSem Pmem.now := by
  intro access pmem
  refine ⟨rfl, ?_⟩
  cases access <;> rfl

section Wp

variable {α : Type} {rest : Nat → Code α} {ok : Pmem Word → Access → Prop}
  {post : α → Pmem Word → Prop}

theorem pmem_wp_load (word : Word) :
    (load word >>= rest).Wp (pmemSem geo rid) ok post pmem ↔
      ok pmem (.load word) ∧ (rest (pmem.now word)).Wp (pmemSem geo rid) ok post pmem := Iff.rfl

theorem pmem_wp_store (word : Word) (value : Nat) :
    (store word value >>= rest).Wp (pmemSem geo rid) ok post pmem ↔
      ok pmem (.store word value) ∧
        (rest (pmem.now word)).Wp (pmemSem geo rid) ok post (pmem.store word value) := Iff.rfl

theorem pmem_wp_fetch_add (word : Word) (amount : Nat) :
    (fetch_add word amount >>= rest).Wp (pmemSem geo rid) ok post pmem ↔
      ok pmem (.fetch_add word amount) ∧
        (rest (pmem.now word)).Wp (pmemSem geo rid) ok post
          (pmem.store word (pmem.now word + amount)) := Iff.rfl

theorem pmem_wp_fetch_sub (word : Word) (amount : Nat) :
    (fetch_sub word amount >>= rest).Wp (pmemSem geo rid) ok post pmem ↔
      ok pmem (.fetch_sub word amount) ∧
        (rest (pmem.now word)).Wp (pmemSem geo rid) ok post
          (pmem.store word (pmem.now word - amount)) := Iff.rfl

theorem pmem_wp_fetch_or (word : Word) (bits : Nat) :
    (fetch_or word bits >>= rest).Wp (pmemSem geo rid) ok post pmem ↔
      ok pmem (.fetch_or word bits) ∧
        (rest (pmem.now word)).Wp (pmemSem geo rid) ok post
          (pmem.store word (pmem.now word ||| bits)) := Iff.rfl

theorem pmem_wp_flush_range (words : List Word) :
    (pmem_flush_range words >>= rest).Wp (pmemSem geo rid) ok post pmem ↔
      ok pmem (.flush words) ∧
        (rest 0).Wp (pmemSem geo rid) ok post (pmem.flush (Word.line geo rid) words) := Iff.rfl

theorem pmem_wp_drain :
    (pmem_drain >>= rest).Wp (pmemSem geo rid) ok post pmem ↔
      ok pmem .fence ∧ (rest 0).Wp (pmemSem geo rid) ok post pmem.fence := Iff.rfl

theorem pmem_wp_persist (words : List Word) :
    (pmem_persist words >>= rest).Wp (pmemSem geo rid) ok post pmem ↔
      ok pmem (.flush words) ∧ ok (pmem.flush (Word.line geo rid) words) .fence ∧
        (rest 0).Wp (pmemSem geo rid) ok post (pmem.flush (Word.line geo rid) words).fence :=
  Iff.rfl

end Wp

theorem only_load_run {α : Type} {prog : Code α} (only : prog.Only IsLoad) :
    prog.run (pmemSem geo rid) pmem = ((prog.run memSem pmem.now).1, pmem) := by
  have unchanged : (prog.run (pmemSem geo rid) pmem).2 = pmem := by
    have guarded : prog.Guarded (pmemSem geo rid) (fun _ access => IsLoad access) pmem :=
      only.guarded (fun _ _ load => load) pmem
    refine guarded.run_preserves (motive := fun last => last = pmem) ?_ rfl
    rintro last access rfl load
    cases access <;> first | rfl | cases load
  exact Prod.ext ((pmemSem_projects geo rid).run prog pmem).1 unchanged

/-! ### Publishing with care -/

/-- The entry of the slot can no longer be lost, and the call was asked to
write it. -/
structure Sealed (pairs : Nat → Nat → Prop) (pmem : Pmem Word) (slot : Slot) : Prop where
  key : pmem.Clean (.key_id slot.bucket slot.idx)
  offset : pmem.Clean (.offset slot.bucket slot.idx)
  asked : pairs (key_at pmem.now slot) (offset_at pmem.now slot)

def Respects (start : Mem) (pairs : Nat → Nat → Prop) (pmem : Pmem Word) : Word × Nat → Prop
  | (.offset bucket i, value) =>
      ∀ idx : Fin kEntriesPerBucket, i = idx → published pmem.now ⟨bucket, idx⟩ = true →
        published start ⟨bucket, idx⟩ = true ∧ pairs (key_at pmem.now ⟨bucket, idx⟩) value
  | (.key_id bucket i, _) =>
      ∀ idx : Fin kEntriesPerBucket, i = idx → published pmem.now ⟨bucket, idx⟩ = false
  | (.header bucket, value) =>
      ∀ idx : Fin kEntriesPerBucket, slot_published value idx = true →
        published pmem.now ⟨bucket, idx⟩ = true ∨ Sealed pairs pmem ⟨bucket, idx⟩
  | (.num_entries, _) | (.next_overflow_alloc, _) => True

def Careful (start : Mem) (pairs : Nat → Nat → Prop) (pmem : Pmem Word) (access : Access) :
    Prop :=
  ∀ write, access.write? pmem.now = some write → Respects start pairs pmem write

/-- The two counters of the region header. Their stores are never flushed by
themselves. -/
def Word.IsCounter : Word → Prop
  | .num_entries | .next_overflow_alloc => True
  | _ => False

def Quiet (pmem : Pmem Word) : Prop := ∀ word : Word, ¬word.IsCounter → pmem.Clean word

/-- An earlier memory of the call: it has everything that was visible at the
start, with offsets that are old or asked for. -/
structure Past (start : Mem) (pairs : Nat → Nat → Prop) (mem : Mem) : Prop where
  grows : Grows start mem
  offsets : ∀ slot, published start slot = true →
    offset_at mem slot = offset_at start slot ∨ pairs (key_at start slot) (offset_at mem slot)

structure Track (start : Mem) (pairs : Nat → Nat → Prop) (pmem : Pmem Word) : Prop where
  grows : Grows start pmem.now
  past : ∀ word, ¬word.IsCounter → ∀ value ∈ pmem.survivors word, ∃ mem,
    Past start pairs mem ∧ Grows mem pmem.now ∧ mem word = value
  sealed_new : ∀ slot, published pmem.now slot = true →
    published start slot = true ∨ Sealed pairs pmem slot

variable {start : Mem} {pairs : Nat → Nat → Prop}

theorem Quiet.track (quiet : Quiet pmem) (pairs : Nat → Nat → Prop) :
    Track pmem.now pairs pmem where
  grows := Grows.refl _
  past := by
    intro word counted value member
    rw [(quiet word counted).survivors, List.mem_singleton] at member
    exact ⟨pmem.now, ⟨Grows.refl _, fun _ _ => .inl rfl⟩, Grows.refl _, member.symm⟩
  sealed_new := fun slot visible => .inl visible

theorem Track.present (track : Track start pairs pmem) : Past start pairs pmem.now where
  grows := track.grows
  offsets := by
    intro slot visible
    obtain ⟨mem, past, -, same⟩ := track.past (.offset slot.bucket slot.idx) id _
      List.mem_cons_self
    have offset : offset_at mem slot = offset_at pmem.now slot := same
    rw [← offset]
    exact past.offsets slot visible

theorem Sealed.store {slot : Slot} (kept : Sealed pairs pmem slot) {word : Word} (value : Nat)
    (key : .key_id slot.bucket slot.idx ≠ word) (offset : .offset slot.bucket slot.idx ≠ word) :
    Sealed pairs (pmem.store word value) slot where
  key := kept.key.store value key
  offset := kept.offset.store value offset
  asked := by
    have same_key : key_at (pmem.store word value).now slot = key_at pmem.now slot := if_neg key
    have same_offset : offset_at (pmem.store word value).now slot = offset_at pmem.now slot :=
      if_neg offset
    rw [same_key, same_offset]
    exact kept.asked

theorem Track.store {word : Word} {value : Nat} (track : Track start pairs pmem)
    (grows : Grows pmem.now (pmem.store word value).now)
    (respects : Respects start pairs pmem (word, value)) :
    Track start pairs (pmem.store word value) where
  grows := track.grows.trans grows
  past := by
    intro other counted survivor member
    rcases Pmem.survivors_store member with ⟨rfl, rfl⟩ | before
    · refine ⟨(pmem.store other survivor).now, ⟨track.grows.trans grows, ?_⟩, Grows.refl _,
        if_pos rfl⟩
      intro slot visible
      by_cases here : Word.offset slot.bucket slot.idx = other
      · subst here
        obtain ⟨-, asked⟩ := respects slot.idx rfl (track.grows.published slot visible)
        have written : offset_at
            (pmem.store (.offset slot.bucket slot.idx) survivor).now slot = survivor := if_pos rfl
        rw [← track.grows.key slot visible, written]
        exact .inr asked
      · have same : offset_at (pmem.store other survivor).now slot = offset_at pmem.now slot :=
          if_neg here
        rw [same]
        exact track.present.offsets slot visible
    · obtain ⟨mem, past, later, same⟩ := track.past other counted survivor before
      exact ⟨mem, past, later.trans grows, same⟩
  sealed_new := by
    intro slot visible
    by_cases before : published pmem.now slot = true
    · rcases track.sealed_new slot before with old | kept
      · exact .inl old
      · by_cases on_key : Word.key_id slot.bucket slot.idx = word
        · subst on_key
          have hidden : published pmem.now slot = false := respects slot.idx rfl
          rw [hidden] at before
          cases before
        · by_cases on_offset : Word.offset slot.bucket slot.idx = word
          · subst on_offset
            exact .inl (respects slot.idx rfl before).1
          · exact .inr (kept.store value on_key on_offset)
    · have on_header : Word.header slot.bucket = word := by
        by_contra different
        have same : published (pmem.store word value).now slot = published pmem.now slot := by
          rw [published, published]
          exact congrArg (slot_published · slot.idx) (if_neg different)
        exact before (same ▸ visible)
      subst on_header
      have stored : slot_published value slot.idx = true := by
        have shown := visible
        rw [published] at shown
        rwa [show (pmem.store (.header slot.bucket) value).now (.header slot.bucket) = value from
          if_pos rfl] at shown
      have kept := (respects slot.idx stored).resolve_left before
      exact .inr (kept.store value (by simp) (by simp))

theorem Track.step (track : Track start pairs pmem) {access : Access}
    (extends_ : Extends pmem.now access) (careful : Careful start pairs pmem access) :
    Track start pairs (pmemSem geo rid access pmem).2 := by
  have stored : ∀ word value, access.write? pmem.now = some (word, value) →
      Track start pairs (pmem.store word value) := by
    intro word value writes
    refine track.store ?_ (careful _ writes)
    rw [Extends, Access.effect, writes] at extends_
    exact extends_
  cases access with
  | load word => exact track
  | store word value => exact stored word value rfl
  | fetch_add word amount => exact stored word _ rfl
  | fetch_sub word amount => exact stored word _ rfl
  | fetch_or word bits => exact stored word _ rfl
  | flush words =>
      exact {
        grows := track.grows
        past := fun word counted value member =>
          track.past word counted value (Pmem.survivors_flush member)
        sealed_new := fun slot visible => (track.sealed_new slot visible).imp_right
          (fun kept => ⟨kept.key.flush words, kept.offset.flush words, kept.asked⟩) }
  | fence =>
      exact {
        grows := track.grows
        past := fun word counted value member =>
          track.past word counted value (Pmem.survivors_fence member)
        sealed_new := fun slot visible => (track.sealed_new slot visible).imp_right
          (fun kept => ⟨kept.key.fence, kept.offset.fence, kept.asked⟩) }

/-! ### What survives -/

structure Survives (start last : Mem) (pairs : Nat → Nat → Prop) (mem : Mem) : Prop where
  above : Grows start mem
  below : Grows mem last
  visible : ∀ slot, published mem slot = true →
    (published start slot = true ∧ offset_at mem slot = offset_at start slot) ∨
      pairs (key_at mem slot) (offset_at mem slot)

theorem Track.image_grows (track : Track start pairs pmem) (choice : Word → Nat) :
    Grows start (pmem.image choice) := by
  have past := fun word counted =>
    track.past word counted _ (pmem.image_mem choice word)
  exact {
    published := by
      intro slot visible
      obtain ⟨mem, before, -, same⟩ := past (.header slot.bucket) id
      rw [published, ← same]
      exact before.grows.published slot visible
    key := by
      intro slot visible
      obtain ⟨mem, before, -, same⟩ := past (.key_id slot.bucket slot.idx) id
      rw [key_at, ← same]
      exact before.grows.key slot visible
    link := by
      intro bucket linked
      obtain ⟨mem, before, -, same⟩ := past (.header bucket) id
      rw [link, ← same]
      exact before.grows.link bucket linked }

theorem Track.image_published (track : Track start pairs pmem) {choice : Word → Nat} {slot : Slot}
    (visible : published (pmem.image choice) slot = true) :
    published pmem.now slot = true := by
  obtain ⟨mem, -, later, same⟩ := track.past (.header slot.bucket) id _
    (pmem.image_mem choice _)
  refine later.published slot ?_
  rwa [published, ← same] at visible

theorem Track.image_below (track : Track start pairs pmem) (choice : Word → Nat) :
    Grows (pmem.image choice) pmem.now where
  published := fun slot visible => track.image_published visible
  key := by
    intro slot visible
    rcases track.sealed_new slot (track.image_published visible) with old | kept
    · rw [track.grows.key slot old, (track.image_grows choice).key slot old]
    · exact (kept.key.image choice).symm
  link := by
    intro bucket linked
    obtain ⟨mem, -, later, same⟩ := track.past (.header bucket) id _ (pmem.image_mem choice _)
    have same_link : link (pmem.image choice) bucket = link mem bucket := by
      rw [link, ← same]
      rfl
    rw [same_link] at linked ⊢
    exact later.link bucket linked

theorem Track.survives {last : Mem} (track : Track start pairs pmem)
    (below : Grows pmem.now last) (choice : Word → Nat) :
    Survives start last pairs (pmem.image choice) where
  above := track.image_grows choice
  below := (track.image_below choice).trans below
  visible := by
    intro slot visible
    rcases track.sealed_new slot (track.image_published visible) with old | kept
    · obtain ⟨mem, before, -, same⟩ := track.past (.offset slot.bucket slot.idx) id _
        (pmem.image_mem choice _)
      have same_offset : offset_at (pmem.image choice) slot = offset_at mem slot := same.symm
      rw [same_offset, (track.image_grows choice).key slot old]
      exact (before.offsets slot old).imp (fun same => ⟨old, same⟩) id
    · have same_key : key_at (pmem.image choice) slot = key_at pmem.now slot :=
        kept.key.image choice
      have same_offset : offset_at (pmem.image choice) slot = offset_at pmem.now slot :=
        kept.offset.image choice
      rw [same_key, same_offset]
      exact .inr kept.asked

/-- Losing counters alone changes nothing that is visible. -/
theorem Quiet.survives (quiet : Quiet pmem) (pairs : Nat → Nat → Prop) (choice : Word → Nat) :
    Survives pmem.now pmem.now pairs (pmem.image choice) :=
  (quiet.track pairs).survives (Grows.refl _) choice

/-- After a failure a key has the entry it had, or one that was asked for. -/
theorem Survives.entry {last mem : Mem} (survives : Survives start last pairs mem)
    (before : Shape geo bid_of start) (shape : Shape geo bid_of last) (old : Old geo start last)
    {bid : Nat} (main : bid < geo.main_buckets_per_region) (key : Nat) :
    entry geo mem bid key = entry geo start bid key ∨
      ∃ off, pairs key off ∧ entry geo mem bid key = some off := by
  have now := shape.of_grows survives.below
  cases found : ColdTier.entry geo mem bid key with
  | none =>
      refine .inl (Eq.symm (entry_eq_none.mpr ?_))
      intro slot member visible same
      refine entry_eq_none.mp found slot (survives.above.chain now.toLinks member)
        (survives.above.published slot visible) ?_
      rw [survives.above.key slot visible, same]
  | some off =>
      obtain ⟨slot, member, visible, same_key, same_off⟩ := slot_of_entry found
      rcases survives.visible slot visible with ⟨visible_start, kept⟩ | asked
      · refine .inl (Eq.symm ((before.entry_eq_some main).mpr
          ⟨slot, ?_, visible_start, ?_, kept.symm.trans same_off⟩))
        · exact old bid slot (survives.below.chain shape.toLinks member) visible_start
        · rw [← survives.above.key slot visible_start, same_key]
      · rw [same_key, same_off] at asked
        exact .inr ⟨off, asked, rfl⟩

/-- Wherever a careful call is stopped, the region survives. -/
theorem survives_of_careful {α : Type} {prog : Code α} (quiet : Quiet pmem)
    (grows : prog.Guarded memSem Extends pmem.now)
    (careful : prog.Guarded (pmemSem geo rid) (Careful pmem.now pairs) pmem)
    (count : Nat) (choice : Word → Nat) :
    Survives pmem.now (prog.run memSem pmem.now).2 pairs
      ((Prog.after (pmemSem geo rid) count prog pmem).image choice) := by
  have guarded := ((pmemSem_projects geo rid).guarded grows).and careful
  have track : Track pmem.now pairs (Prog.after (pmemSem geo rid) count prog pmem) :=
    guarded.after_preserves (fun state access track permitted =>
      track.step permitted.1 permitted.2) (quiet.track pairs) count
  have below : Grows (Prog.after (pmemSem geo rid) count prog pmem).now
      (prog.run (pmemSem geo rid) pmem).2.now :=
    guarded.after_run (motive := fun first last => Grows first.now last.now)
      (fun state => Grows.refl _)
      (fun first state access grown permitted => by
        rw [((pmemSem_projects geo rid) access state).2]
        exact grown.trans permitted.1) count
  rw [((pmemSem_projects geo rid).run prog pmem).2] at below
  exact track.survives below choice

end Hiom.ColdTier
