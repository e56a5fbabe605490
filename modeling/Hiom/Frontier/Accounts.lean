import Hiom.Lib.Count
import Hiom.Frontier.Model

/-!
Who holds what: each client its slot and its blocks, the pending ring the
entries that are registered and not yet retired.
-/

namespace Hiom.Frontier

def Stage.record : Stage → Option CommitEntry
  | .persisted _ e | .noted _ e | .registered _ e => some e
  | _ => none

def Registered (block : Nat) : Option Client → Prop
  | some ⟨_, .registered _ e⟩ => e.block = block
  | _ => False

structure ClientOk (viper_next : Nat) (slots : Nat → ClientSlot) (landed : CommitEntry → Prop)
    (c : Client) : Prop where
  bounded : c.block < viper_next
  claimed : ∀ slot, c.stage.claimed = some slot → (slots slot).active = true
  inflight : ∀ slot, c.stage.tracked = some slot →
    (slots slot).inflight_block = kNoActiveBlock ∨ (slots slot).inflight_block ≤ c.block
  written : ∀ e, c.stage.record = some e → e.block = c.block
  pushed : ∀ slot e, c.stage = .pushed slot e → landed e

def State.Landed (state : State) (e : CommitEntry) : Prop := e ∈ state.cold ∨ e ∈ state.buffer

structure Accounted (state : State) : Prop where
  fresh : ∀ id, state.created ≤ id → state.clients id = none
  clients : ∀ id c, state.clients id = some c →
    ClientOk state.viper_next state.slots state.Landed c
  unique : ∀ first second c d slot, state.clients first = some c → state.clients second = some d →
    c.stage.claimed = some slot → d.stage.claimed = some slot → first = second
  returned : ∀ e ∈ state.returned, state.Landed e
  pending : ∀ block, ∃ registered, Counts (Registered block) state.clients registered ∧
    pending_count state.ring block = registered +
      state.buffer.countP (·.block == block) + state.applied.countP (·.block == block)

theorem Stage.claimed_of_tracked {stage : Stage} {slot : Nat} (tracked : stage.tracked = some slot) :
    stage.claimed = some slot := by
  cases stage with
  | reserving | reset_last | reset_inflight => cases tracked
  | _ => exact tracked

theorem forall_update {clients : Nat → Option Client} {motive : Nat → Client → Prop} {id : Nat}
    {c : Client} (own : motive id c)
    (others : ∀ other d, other ≠ id → clients other = some d → motive other d) :
    ∀ other d, Function.update clients id (some c) other = some d → motive other d := by
  intro other d present
  by_cases same : other = id
  · subst same
    rw [Function.update_self] at present
    cases present
    exact own
  · rw [Function.update_of_ne same] at present
    exact others other d same present

theorem remaining {clients : Nat → Option Client} {id other : Nat} {c : Client}
    (present : Function.update clients id none other = some c) :
    other ≠ id ∧ clients other = some c := by
  by_cases same : other = id
  · subst same
    rw [Function.update_self] at present
    cases present
  · rw [Function.update_of_ne same] at present
    exact ⟨same, present⟩

section ClientOk

variable {viper_next later : Nat} {slots : Nat → ClientSlot} {landed reached : CommitEntry → Prop}
  {c : Client}

theorem ClientOk.mono (ok : ClientOk viper_next slots landed c) (next : viper_next ≤ later)
    (more : ∀ e, landed e → reached e) : ClientOk later slots reached c where
  bounded := ok.bounded.trans_le next
  claimed := ok.claimed
  inflight := ok.inflight
  written := ok.written
  pushed := fun slot e at_end => more e (ok.pushed slot e at_end)

/-- Other clients write to other slots. -/
theorem ClientOk.other_slot (ok : ClientOk viper_next slots landed c) {after : Nat → ClientSlot}
    (same : ∀ idx, c.stage.claimed = some idx → after idx = slots idx) :
    ClientOk viper_next after landed c where
  bounded := ok.bounded
  claimed := by
    intro own claimed
    rw [same own claimed]
    exact ok.claimed own claimed
  inflight := by
    intro own tracked
    rw [same own (Stage.claimed_of_tracked tracked)]
    exact ok.inflight own tracked
  written := ok.written
  pushed := ok.pushed

end ClientOk

variable {state next : State}

namespace Accounted

section Advance

variable {id : Nat} {c d : Client} (accounted : Accounted state)
  (present : state.clients id = some c)
include accounted present

theorem fresh_at :
    ∀ other, state.created ≤ other → Function.update state.clients id (some d) other = none := by
  intro other unused
  have absent := accounted.fresh other unused
  rw [Function.update_of_ne, absent]
  rintro rfl
  rw [absent] at present
  cases present

/-- A client moves on and keeps its slot. -/
theorem unique_at (kept : ∀ slot, d.stage.claimed = some slot → c.stage.claimed = some slot) :
    ∀ first second e f slot, Function.update state.clients id (some d) first = some e →
      Function.update state.clients id (some d) second = some f →
      e.stage.claimed = some slot → f.stage.claimed = some slot → first = second := by
  intro first second e f slot is_first is_second claimed_first claimed_second
  have old : ∀ other g, Function.update state.clients id (some d) other = some g →
      g.stage.claimed = some slot →
        ∃ h, state.clients other = some h ∧ h.stage.claimed = some slot := by
    apply forall_update
    · exact fun claimed => ⟨c, present, kept slot claimed⟩
    · exact fun other g _ present claimed => ⟨g, present, claimed⟩
  obtain ⟨g, present_first, claimed_g⟩ := old first e is_first claimed_first
  obtain ⟨h, present_second, claimed_h⟩ := old second f is_second claimed_second
  exact accounted.unique first second g h slot present_first present_second claimed_g claimed_h

omit present in
theorem clients_at {viper_next : Nat} {slots : Nat → ClientSlot} {landed : CommitEntry → Prop}
    (own : ClientOk viper_next slots landed d) (grown : state.viper_next ≤ viper_next)
    (elsewhere : ∀ other e idx, other ≠ id → state.clients other = some e →
      e.stage.claimed = some idx → slots idx = state.slots idx)
    (more : ∀ e, state.Landed e → landed e) :
    ∀ other e, Function.update state.clients id (some d) other = some e →
      ClientOk viper_next slots landed e := by
  apply forall_update (motive := fun _ => ClientOk viper_next slots landed)
  · exact own
  · intro other e different present_other
    exact ((accounted.clients other e present_other).other_slot
      (fun idx claimed => elsewhere other e idx different present_other claimed)).mono grown more

/-- A client's own slot is no other client's. -/
theorem own_slot {slot : Nat} (claimed : c.stage.claimed = some slot) (value : ClientSlot) :
    ∀ other e idx, other ≠ id → state.clients other = some e → e.stage.claimed = some idx →
      Function.update state.slots slot value idx = state.slots idx := by
  intro other e idx different present_other claimed_other
  apply Function.update_of_ne
  rintro rfl
  exact different (accounted.unique other id e c idx present_other present claimed_other claimed)

theorem pending_at (kept : ∀ block, Registered block (some d) ↔ Registered block (some c)) :
    ∀ block, ∃ registered,
      Counts (Registered block) (Function.update state.clients id (some d)) registered ∧
      pending_count state.ring block = registered +
        state.buffer.countP (·.block == block) + state.applied.countP (·.block == block) := by
  intro block
  obtain ⟨registered, counts, total⟩ := accounted.pending block
  refine ⟨registered, counts.keep ?_, total⟩
  rw [present]
  exact kept block

end Advance

/-- Steps of a client that leave the buffer and the ring alone. -/
theorem moved {id block viper_next : Nat} {c : Client} {stage : Stage} {slots : Nat → ClientSlot}
    (accounted : Accounted state) (present : state.clients id = some c)
    (own : ClientOk viper_next slots state.Landed ⟨block, stage⟩)
    (kept : ∀ slot, stage.claimed = some slot → c.stage.claimed = some slot)
    (grown : state.viper_next ≤ viper_next)
    (elsewhere : ∀ other e idx, other ≠ id → state.clients other = some e →
      e.stage.claimed = some idx → slots idx = state.slots idx)
    (same : ∀ other, Registered other (some ⟨block, stage⟩) ↔ Registered other (some c)) :
    Accounted { state with
      viper_next := viper_next
      slots := slots
      clients := Function.update state.clients id (some ⟨block, stage⟩) } where
  fresh := accounted.fresh_at present
  clients := accounted.clients_at own grown elsewhere (fun _ landed => landed)
  unique := accounted.unique_at present kept
  returned := accounted.returned
  pending := accounted.pending_at present same

theorem reserve {id block idx : Nat} (accounted : Accounted state)
    (present : state.clients id = some ⟨block, .reserving idx⟩)
    (free : (state.slots idx).active = false) :
    Accounted ((state.set_slot idx { state.slots idx with active := true }).at id block
      (.reset_last idx)) := by
  have unclaimed : ∀ other c slot, state.clients other = some c → c.stage.claimed = some slot →
      slot ≠ idx := by
    rintro other c slot present_other claimed rfl
    have active := (accounted.clients other c present_other).claimed slot claimed
    rw [free] at active
    cases active
  refine ⟨accounted.fresh_at present, ?_, ?_, accounted.returned,
    accounted.pending_at present (fun _ => Iff.rfl)⟩
  · refine accounted.clients_at ?_ le_rfl ?_ (fun _ landed => landed)
    · have ok := accounted.clients id _ present
      refine ⟨ok.bounded, ?_, (fun _ tracked => nomatch tracked), (fun _ record => nomatch record),
        (fun _ _ ended => nomatch ended)⟩
      rintro slot ⟨⟩
      simp [State.at, State.set_slot]
    · intro other e slot _ present_other claimed
      exact Function.update_of_ne (unclaimed other e slot present_other claimed) _ _
  · intro first second c d slot is_first is_second claimed_first claimed_second
    have owner : ∀ other e, Function.update state.clients id
        (some ⟨block, .reset_last idx⟩) other = some e → e.stage.claimed = some slot →
          (other = id ∧ slot = idx) ∨ ∃ f, state.clients other = some f ∧
            f.stage.claimed = some slot := by
      apply forall_update
      · exact fun claimed => .inl ⟨rfl, (Option.some.inj claimed).symm⟩
      · exact fun other f _ present_other claimed => .inr ⟨f, present_other, claimed⟩
    rcases owner first c is_first claimed_first with ⟨rfl, here⟩ | ⟨f, present_f, claimed_f⟩
    · rcases owner second d is_second claimed_second with ⟨rfl, -⟩ | ⟨g, present_g, claimed_g⟩
      · rfl
      · exact absurd here (unclaimed second g slot present_g claimed_g)
    · rcases owner second d is_second claimed_second with ⟨rfl, here⟩ | ⟨g, present_g, claimed_g⟩
      · exact absurd here (unclaimed first f slot present_f claimed_f)
      · exact accounted.unique first second f g slot present_f present_g claimed_f claimed_g

theorem register {id block slot : Nat} {e : CommitEntry} {ring : PendingBlocks}
    (accounted : Accounted state) (present : state.clients id = some ⟨block, .noted slot e⟩)
    (registered : pending_register state.ring e.block = some ring) :
    Accounted ({ state with ring := ring }.at id block (.registered slot e)) := by
  have ok := accounted.clients id _ present
  refine ⟨accounted.fresh_at present, ?_, accounted.unique_at present (fun _ claimed => claimed),
    accounted.returned, fun other => ?_⟩
  · refine accounted.clients_at ?_ le_rfl (fun _ _ _ _ _ _ => rfl) (fun _ landed => landed)
    exact ⟨ok.bounded, ok.claimed, ok.inflight, ok.written, (fun _ _ ended => nomatch ended)⟩
  · obtain ⟨count, counts, total⟩ := accounted.pending other
    have counted := register_count registered other
    change ∃ count, Counts (Registered other) (Function.update state.clients id
      (some ⟨block, .registered slot e⟩)) count ∧ pending_count ring other = count +
        state.buffer.countP (·.block == other) + state.applied.countP (·.block == other)
    by_cases here : other = e.block
    · refine ⟨count + 1, counts.enter ?_ here.symm, ?_⟩
      · rw [present]
        exact fun still => still
      · rw [if_pos here] at counted
        omega
    · refine ⟨count, counts.keep ?_, ?_⟩
      · rw [present]
        exact ⟨fun same => absurd same.symm here, fun still => still.elim⟩
      · rw [if_neg here] at counted
        omega

theorem push {id block slot : Nat} {e : CommitEntry} (accounted : Accounted state)
    (present : state.clients id = some ⟨block, .registered slot e⟩) :
    Accounted ({ state with buffer := state.buffer ++ [e] }.at id block (.pushed slot e)) := by
  have ok := accounted.clients id _ present
  have more : ∀ other, state.Landed other →
      other ∈ state.cold ∨ other ∈ state.buffer ++ [e] :=
    fun other landed => landed.imp_right (fun member => List.mem_append_left _ member)
  refine ⟨accounted.fresh_at present, ?_, accounted.unique_at present (fun _ claimed => claimed),
    fun other member => more other (accounted.returned other member), fun other => ?_⟩
  · refine accounted.clients_at ?_ le_rfl (fun _ _ _ _ _ _ => rfl) more
    refine ⟨ok.bounded, ok.claimed, ok.inflight, (fun _ record => nomatch record), ?_⟩
    rintro _ _ ⟨⟩
    exact .inr (List.mem_append_right _ (List.mem_singleton_self e))
  · obtain ⟨count, counts, total⟩ := accounted.pending other
    change ∃ count, Counts (Registered other) (Function.update state.clients id
      (some ⟨block, .pushed slot e⟩)) count ∧ pending_count state.ring other = count +
        (state.buffer ++ [e]).countP (·.block == other) + state.applied.countP (·.block == other)
    rw [List.countP_append, List.countP_singleton]
    by_cases here : e.block = other
    · have due : Registered other (state.clients id) := by
        rw [present]
        exact here
      obtain ⟨rest, rfl⟩ : ∃ rest, count = rest + 1 := ⟨count - 1, by have := counts.pos due; omega⟩
      refine ⟨rest, counts.leave due (fun still => still), ?_⟩
      rw [if_pos (beq_iff_eq.mpr here)]
      omega
    · refine ⟨count, counts.keep ?_, ?_⟩
      · rw [present]
        exact ⟨fun still => still.elim, fun same => absurd same here⟩
      · rw [if_neg (fun same => here (beq_iff_eq.mp same))]
        omega

theorem client_step {id : Nat} (accounted : Accounted state)
    (stepped : state.client_step id = some next) : Accounted next := by
  simp only [State.client_step] at stepped
  cases present : state.clients id with
  | none =>
      rw [present] at stepped
      cases stepped
  | some c =>
      obtain ⟨block, stage⟩ := c
      have ok := accounted.clients id _ present
      rw [present] at stepped
      cases stage with
      | reserving idx =>
          dsimp only at stepped
          split at stepped
          · split at stepped
            · cases stepped
              exact accounted.moved present ⟨ok.bounded, (fun _ claimed => nomatch claimed),
                (fun _ tracked => nomatch tracked), (fun _ record => nomatch record),
                (fun _ _ ended => nomatch ended)⟩ (fun _ claimed => claimed) le_rfl
                (fun _ _ _ _ _ _ => rfl) (fun _ => Iff.rfl)
            · rename_i taken
              cases stepped
              exact accounted.reserve present (Bool.not_eq_true _ ▸ taken)
          · cases stepped
      | reset_last slot =>
          cases stepped
          refine accounted.moved present ⟨ok.bounded, ?_, (fun _ tracked => nomatch tracked),
            (fun _ record => nomatch record), (fun _ _ ended => nomatch ended)⟩
            (fun _ claimed => claimed) le_rfl (accounted.own_slot present rfl _) (fun _ => Iff.rfl)
          rintro _ ⟨⟩
          simp only [State.set_slot, Function.update_self]
          exact ok.claimed slot rfl
      | reset_inflight slot =>
          cases stepped
          refine accounted.moved present ⟨ok.bounded, ?_, ?_, (fun _ record => nomatch record),
            (fun _ _ ended => nomatch ended)⟩ (fun _ claimed => claimed) le_rfl
            (accounted.own_slot present rfl _) (fun _ => Iff.rfl)
          · rintro _ ⟨⟩
            simp only [State.set_slot, Function.update_self]
            exact ok.claimed slot rfl
          · rintro _ ⟨⟩
            exact .inl (by simp [State.set_slot])
      | ready slot => cases stepped
      | announced slot key =>
          cases stepped
          refine accounted.moved present ⟨ok.bounded, ok.claimed, ok.inflight, ?_,
            (fun _ _ ended => nomatch ended)⟩ (fun _ claimed => claimed) le_rfl
            (fun _ _ _ _ _ _ => rfl) (fun _ => Iff.rfl)
          rintro _ ⟨⟩
          rfl
      | persisted slot e =>
          cases stepped
          refine accounted.moved present ⟨ok.bounded, ?_, ?_, ok.written,
            (fun _ _ ended => nomatch ended)⟩ (fun _ claimed => claimed) le_rfl
            (accounted.own_slot present rfl _) (fun _ => Iff.rfl)
          · rintro _ ⟨⟩
            simp only [State.set_slot, Function.update_self]
            exact ok.claimed slot rfl
          · rintro _ ⟨⟩
            simp only [State.set_slot, Function.update_self]
            exact ok.inflight slot rfl
      | noted slot e =>
          dsimp only at stepped
          split at stepped
          · cases stepped
          · rename_i ring registered
            cases stepped
            exact accounted.register present registered
      | registered slot e =>
          cases stepped
          exact accounted.push present
      | pushed slot e =>
          cases stepped
          have moved : Accounted (state.at id block (.ready slot)) :=
            accounted.moved present ⟨ok.bounded, ok.claimed, ok.inflight,
              (fun _ record => nomatch record), (fun _ _ ended => nomatch ended)⟩
              (fun _ claimed => claimed) le_rfl (fun _ _ _ _ _ _ => rfl) (fun _ => Iff.rfl)
          refine { moved with returned := fun other member => ?_ }
          rcases List.mem_append.mp member with before | here
          · exact accounted.returned other before
          · rw [List.mem_singleton.mp here]
            exact ok.pushed slot e rfl

theorem put {id key : Nat} (accounted : Accounted state)
    (stepped : state.step (.put id key) = some next) : Accounted next := by
  simp only [State.step] at stepped
  split at stepped
  · rename_i block slot present
    split at stepped
    · cases stepped
    · have ok := accounted.clients id _ present
      cases stepped
      have moved : Accounted ((state.set_slot slot
          { state.slots slot with inflight_block := block }).at id block
            (.announced slot key)) := by
        refine accounted.moved present ⟨ok.bounded, ?_, ?_, (fun _ record => nomatch record),
          (fun _ _ ended => nomatch ended)⟩ (fun _ claimed => claimed) le_rfl
          (accounted.own_slot present rfl _) (fun _ => Iff.rfl)
        · rintro _ ⟨⟩
          simp only [State.set_slot, Function.update_self]
          exact ok.claimed slot rfl
        · rintro _ ⟨⟩
          exact .inr (by simp [State.set_slot])
      exact { moved with }
  · cases stepped

theorem claim_block {id : Nat} (accounted : Accounted state)
    (stepped : state.step (.claim_block id) = some next) : Accounted next := by
  simp only [State.step] at stepped
  split at stepped
  · rename_i block slot key present
    have ok := accounted.clients id _ present
    cases stepped
    refine accounted.moved present ⟨Nat.lt_succ_self _, ok.claimed, ?_,
      (fun _ record => nomatch record), (fun _ _ ended => nomatch ended)⟩
      (fun _ claimed => claimed) (Nat.le_succ _) (fun _ _ _ _ _ _ => rfl) (fun _ => Iff.rfl)
    intro slot' tracked
    exact (ok.inflight slot' tracked).imp_right (fun below => below.trans ok.bounded.le)
  · cases stepped

theorem get_client (accounted : Accounted state)
    (stepped : state.step .get_client = some next) : Accounted next := by
  cases stepped
  have absent := accounted.fresh state.created le_rfl
  have old : ∀ other c, state.clients other = some c → other ≠ state.created := by
    rintro other c present rfl
    rw [absent] at present
    cases present
  refine ⟨?_, ?_, ?_, accounted.returned, fun block => ?_⟩
  · intro other unused
    change Function.update state.clients state.created _ other = none
    rw [Function.update_of_ne (Nat.ne_of_gt unused)]
    exact accounted.fresh other (Nat.le_of_lt unused)
  · apply forall_update
    · exact ⟨Nat.lt_succ_self _, (fun _ claimed => nomatch claimed),
        (fun _ tracked => nomatch tracked), (fun _ record => nomatch record),
        (fun _ _ ended => nomatch ended)⟩
    · intro other c _ present
      exact (accounted.clients other c present).mono (Nat.le_succ _) (fun _ landed => landed)
  · have owner : ∀ slot other e, Function.update state.clients state.created
        (some ⟨state.viper_next, .reserving 0⟩) other = some e →
          e.stage.claimed = some slot → state.clients other = some e := by
      intro slot
      apply forall_update
      · exact fun claimed => nomatch claimed
      · exact fun other e _ present _ => present
    intro first second c d slot is_first is_second claimed_first claimed_second
    exact accounted.unique first second c d slot (owner slot first c is_first claimed_first)
      (owner slot second d is_second claimed_second) claimed_first claimed_second
  · obtain ⟨registered, counts, total⟩ := accounted.pending block
    refine ⟨registered, counts.keep ?_, total⟩
    rw [absent]
    exact Iff.rfl

theorem destroy {id : Nat} (accounted : Accounted state)
    (stepped : state.step (.destroy id) = some next) : Accounted next := by
  simp only [State.step] at stepped
  split at stepped
  · rename_i block slot present
    cases stepped
    refine ⟨?_, ?_, ?_, accounted.returned, fun other => ?_⟩
    · intro other unused
      by_cases same : other = id
      · subst same
        exact Function.update_self ..
      · exact (Function.update_of_ne same ..).trans (accounted.fresh other unused)
    · intro other c present_other
      obtain ⟨different, present_other⟩ := remaining present_other
      apply (accounted.clients other c present_other).other_slot
      intro idx claimed
      exact accounted.own_slot present rfl _ other c idx different present_other claimed
    · intro first second c d slot is_first is_second
      exact accounted.unique first second c d slot (remaining is_first).2
        (remaining is_second).2
    · obtain ⟨registered, counts, total⟩ := accounted.pending other
      refine ⟨registered, counts.keep ?_, total⟩
      rw [present]
      exact Iff.rfl
  · cases stepped

theorem apply {e : CommitEntry} (accounted : Accounted state)
    (stepped : state.step (.apply e) = some next) : Accounted next := by
  simp only [State.step] at stepped
  split at stepped
  · rename_i member
    cases stepped
    have more : ∀ other, state.Landed other →
        other ∈ state.cold ++ [e] ∨ other ∈ state.buffer.erase e := by
      rintro other (cold | buffered)
      · exact .inl (List.mem_append_left _ cold)
      · by_cases same : other = e
        · exact .inl (List.mem_append_right _ (List.mem_singleton.mpr same))
        · exact .inr ((List.mem_erase_of_ne same).mpr buffered)
    refine ⟨accounted.fresh, fun id c present => (accounted.clients id c present).mono le_rfl more,
      accounted.unique, fun other returned => more other (accounted.returned other returned),
      fun block => ?_⟩
    obtain ⟨registered, counts, total⟩ := accounted.pending block
    refine ⟨registered, counts, ?_⟩
    have split := (List.perm_cons_erase member).countP_eq (·.block == block)
    rw [List.countP_cons] at split
    simp only [List.countP_append, List.countP_singleton]
    omega
  · cases stepped

theorem retire {e : CommitEntry} (accounted : Accounted state)
    (stepped : state.step (.retire e) = some next) : Accounted next := by
  simp only [State.step] at stepped
  split at stepped
  · rename_i member
    split at stepped
    · cases stepped
    · rename_i ring retired
      cases stepped
      refine ⟨accounted.fresh, accounted.clients, accounted.unique, accounted.returned,
        fun block => ?_⟩
      obtain ⟨registered, counts, total⟩ := accounted.pending block
      refine ⟨registered, counts, ?_⟩
      have counted := retire_count retired block
      have split := (List.perm_cons_erase member).countP_eq (·.block == block)
      rw [List.countP_cons] at split
      simp only [beq_iff_eq] at split
      by_cases here : e.block = block
      · rw [if_pos here] at split
        rw [if_pos here.symm] at counted
        dsimp only
        omega
      · rw [if_neg here] at split
        rw [if_neg (Ne.symm here)] at counted
        dsimp only
        omega
  · cases stepped

theorem checkpoint (accounted : Accounted state) : Accounted state.checkpoint_step := by
  simp only [State.checkpoint_step]
  split <;> (repeat' split) <;> exact { accounted with }

theorem step {action : Action} (accounted : Accounted state)
    (stepped : state.step action = some next) : Accounted next := by
  cases action with
  | get_client => exact accounted.get_client stepped
  | put id key => exact accounted.put stepped
  | claim_block id => exact accounted.claim_block stepped
  | client id => exact accounted.client_step stepped
  | destroy id => exact accounted.destroy stepped
  | apply e => exact accounted.apply stepped
  | retire e => exact accounted.retire stepped
  | checkpoint =>
      cases stepped
      exact accounted.checkpoint

end Accounted

theorem opened_accounted (viper_next : Nat) (frontier : Option Nat) :
    Accounted (State.opened viper_next frontier) where
  fresh := fun _ _ => rfl
  clients := fun id c present => nomatch present
  unique := fun first second c d slot present => nomatch present
  returned := fun e member => nomatch member
  pending := fun block => ⟨0, Counts.none_meets (fun _ registered => registered), by
    simp [pending_count, State.opened, count_of]⟩

end Hiom.Frontier
