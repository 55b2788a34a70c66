import Filogic.Ppe.Orphans

/-! Every step of a run: the lists stay right, and no bound entry loses its flow, as long as the walks
leave none behind. -/

namespace Filogic.Ppe
open Lib

variable {s : FlowTable}

/-- The lists are right, and every entry that is still bound for a flow is that flow's. -/
structure Sound (s : FlowTable) : Prop where
  listed : Listed s
  tracked : Tracked s

theorem Sound.start : Sound .start where
  listed := .start
  tracked h id written := absurd written (by simp [FlowTable.start])

section Subflows

/-- The ids are those of subflows of one L2 flow, or of nothing any more. -/
def OnlySubflows (s : FlowTable) (id : FlowId) (ids : List FlowId) : Prop :=
  ∀ x ∈ ids, ∀ e, s.flows x = some e → e.type = .l2Subflow ∧ e.baseFlow = id

theorem Sound.onlySubflows (sound : Sound s) {id : FlowId} {e : FlowEntry}
    (has : s.flows id = some e) : OnlySubflows s id e.l2Flows := by
  intro x member ex hx
  obtain ⟨-, e', has', kind, base⟩ := sound.listed.sub id e has x member
  obtain rfl := Option.some.inj (hx.symm.trans has')
  exact ⟨kind, base⟩

variable {id x : FlowId} {e : FlowEntry}

/-- A subflow is cleared, with or without its entry. -/
theorem Sound.clearSub (sound : Sound s) (has : s.flows x = some e) (kind : e.type = .l2Subflow)
    (e' : FlowEntry) (type : e'.type = e.type)
    (base : e'.baseFlow = e.baseFlow) (lost : e.hash ≠ noHash → e'.hash = e.hash ∨ ¬(s.foeTable e.hash).Bound) :
    Sound (s.clearFlow x e') where
  listed := sound.listed.clearSubflow has e' kind type base
  tracked h := by
    refine (sound.tracked h).clearSubflow has kind e' type fun own some_ => ?_
    subst own
    exact lost some_

theorem OnlySubflows.clearSub {ids : List FlowId} (only : OnlySubflows s id ids) (e' : FlowEntry)
    (kind : e'.type = .l2Subflow) : OnlySubflows (s.clearFlow x e') id ids := by
  intro y member ey hy
  rw [clearFlow_sub x e' kind] at hy
  have := only y member
  cases before : s.flows y <;> grind

theorem OnlySubflows.tail {ids : List FlowId} (only : OnlySubflows s id (x :: ids)) :
    OnlySubflows s id ids := fun y member => only y (List.mem_cons_of_mem _ member)

end Subflows

section Idle

variable {now : UInt32} {id : FlowId}

theorem Sound.setData (sound : Sound s) {e : FlowEntry} (has : s.flows id = some e) (data : FoeEntry)
    (same : ∀ h, (s.foeTable h).Bound → Owns s h id → e.type ≠ .l2 → data.SameKey e.data) :
    Sound (s.setFlow id { e with data := data }) where
  listed := sound.listed.setFlow has _ rfl rfl rfl fun kind => by
    by_cases none : e.hash = noHash
    · exact .inl none
    · exact .inr (sound.listed.hashed id e has kind none)
  tracked h := (sound.tracked h).setData has data (same h)

/-- What one round of the update of an L2 flow comes to: a subflow goes, or the flow gets other data. -/
theorem updateSubflow_cases (w : FlowTable × Int) (cur : FlowId) :
    (FlowTable.updateSubflow now id w cur).1 = w.1 ∨
      (∃ entry, w.1.flows cur = some entry ∧ ¬(w.1.foeTable entry.hash).Bound ∧
        (FlowTable.updateSubflow now id w cur).1 =
          w.1.clearFlow cur { entry with hash := noHash }) ∨
      ∃ e data, w.1.flows id = some e ∧
        (FlowTable.updateSubflow now id w cur).1 = w.1.setFlow id { e with data := data } := by
  obtain ⟨s, idle⟩ := w
  rw [FlowTable.updateSubflow]
  cases found : s.flows cur with
  | none => exact .inl rfl
  | some entry =>
    dsimp only
    by_cases gone : ¬(s.foeTable entry.hash).Bound
    · rw [if_pos gone]
      exact .inr (.inl ⟨entry, rfl, gone, rfl⟩)
    · rw [if_neg gone]
      split_ifs with older
      · exact .inl rfl
      · cases has : s.flows id with
        | none =>
          have same : s.modifyFlow id (fun flow =>
              { flow with data := flow.data.stamped (s.foeTable entry.hash).ib1 }) = s := by
            rw [FlowTable.modifyFlow, has, Option.map_none, ← has, Function.update_eq_self]
          exact .inl same
        | some e => exact .inr (.inr ⟨e, _, rfl, modifyFlow_eq has _⟩)

/-- An L2 flow among its subflows keeps its kind, and they keep theirs. -/
theorem OnlySubflows.update {w : FlowTable × Int} {cur : FlowId} {ids : List FlowId}
    (only : OnlySubflows w.1 id (cur :: ids)) (isL2 : ∀ e, w.1.flows id = some e → e.type = .l2) :
    OnlySubflows (FlowTable.updateSubflow now id w cur).1 id ids ∧
      ∀ e, (FlowTable.updateSubflow now id w cur).1.flows id = some e → e.type = .l2 := by
  obtain stay | ⟨entry, found, -, gone⟩ | ⟨e, data, has, set⟩ := updateSubflow_cases w cur
  · rw [stay]
    exact ⟨only.tail, isL2⟩
  · rw [gone]
    obtain ⟨kind, -⟩ := only cur List.mem_cons_self entry found
    refine ⟨only.tail.clearSub _ kind, fun e has => ?_⟩
    rw [clearFlow_sub cur { entry with hash := noHash } kind] at has
    cases before : w.1.flows id <;> grind
  · rw [set]
    have := isL2 e has
    constructor
    · intro y member ey hy
      have := only y (List.mem_cons_of_mem _ member)
      simp only [FlowTable.setFlow, Function.update_apply] at hy
      grind
    · intro e' has'
      simp only [FlowTable.setFlow, Function.update_apply] at has'
      grind

/-- One round of the update of an L2 flow. -/
theorem Sound.updateSubflow {w : FlowTable × Int} (sound : Sound w.1) {cur : FlowId}
    {ids : List FlowId} (only : OnlySubflows w.1 id (cur :: ids))
    (isL2 : ∀ e, w.1.flows id = some e → e.type = .l2) :
    Sound (FlowTable.updateSubflow now id w cur).1 := by
  obtain stay | ⟨entry, found, gone, dropped⟩ | ⟨e, data, has, set⟩ := updateSubflow_cases w cur
  · rw [stay]
    exact sound
  · rw [dropped]
    obtain ⟨kind, -⟩ := only cur List.mem_cons_self entry found
    exact sound.clearSub found kind _ rfl rfl fun _ => .inr gone
  · rw [set]
    exact sound.setData has _ fun _ _ _ other => absurd (isL2 e has) other

theorem Sound.updateSubflows {w : FlowTable × Int} (sound : Sound w.1) {ids : List FlowId}
    (only : OnlySubflows w.1 id ids) (isL2 : ∀ e, w.1.flows id = some e → e.type = .l2) :
    Sound (ids.foldl (FlowTable.updateSubflow now id) w).1 := by
  induction ids generalizing w with
  | nil => exact sound
  | cons cur ids ih =>
    obtain ⟨only', isL2'⟩ := only.update isL2
    exact ih (sound.updateSubflow only isL2) only' isL2'

theorem Sound.idle (sound : Sound s) (user : s.hasUser id = true) :
    Sound (s.foeEntryIdleTime now id).1 := by
  cases has : s.flows id with
  | none => simp [FlowTable.hasUser, has] at user
  | some e =>
    have notSub : e.type ≠ .l2Subflow := by simpa [FlowTable.hasUser, has] using user
    have l4 (other : e.type ≠ .l2) : e.type = .l4 := by cases type : e.type <;> simp_all
    simp only [FlowTable.foeEntryIdleTime, FlowTable.update, has]
    split_ifs with l2 none keeps
    · exact sound.updateSubflows (sound.onlySubflows has) fun e' has' =>
        Option.some.inj (has.symm.trans has') ▸ l2
    · exact sound
    · apply sound.setData has
      intro h bound owns kind
      obtain ⟨e', has', -, own⟩ := (owns.recorded id).mpr rfl
      obtain rfl := Option.some.inj (has.symm.trans has')
      subst own
      exact ⟨(owns.agrees e has (l4 l2)).1, rfl⟩
    · refine ⟨sound.listed.setFlow has _ rfl rfl rfl fun _ => .inl rfl, fun h => ?_⟩
      refine (sound.tracked h).reset has fun owns own => ?_
      subst own
      exact absurd (owns.agrees e has (l4 l2)).matchesFlow keeps

end Idle

section Clear

variable {id : FlowId}

/-- An L2 flow is being cleared, with the subflows `ids` to go. -/
structure Clearing (id : FlowId) (s : FlowTable) (ids : List FlowId) : Prop where
  sound : Sound s
  only : OnlySubflows s id ids
  out : id ∉ s.l2Flows
  left : ∃ e, s.flows id = some e ∧ e.type = .l2 ∧ ∀ x ∈ e.l2Flows, x ∈ ids

theorem Clearing.next {x : FlowId} {ids : List FlowId} (clearing : Clearing id s (x :: ids)) :
    Clearing id (s.clearSubflow x) ids ∧ (s.clearSubflow x).flows x = none ∧
      ∀ k, s.flows k = none → (s.clearSubflow x).flows k = none := by
  obtain ⟨sound, only, out, e, has, l2, left⟩ := clearing
  rw [FlowTable.clearSubflow]
  cases found : s.flows x with
  | none =>
    refine ⟨⟨sound, only.tail, out, e, has, l2, fun y member => ?_⟩, found, fun k none => none⟩
    obtain rfl | more := List.mem_cons.mp (left y member)
    · obtain ⟨-, e', has', -⟩ := sound.listed.sub id e has y member
      rw [found] at has'
      exact absurd has' (by simp)
    · exact more
  | some ex =>
    obtain ⟨kind, base⟩ := only x List.mem_cons_self ex found
    have flows := clearFlow_sub (s := s) x ex kind
    rw [base] at flows
    have ne : id ≠ x := by
      rintro rfl
      rw [Option.some.inj (has.symm.trans found), kind] at l2
      exact absurd l2 (by decide)
    refine ⟨⟨?_, only.tail.clearSub ex kind, ?_, ?_⟩, ?_, ?_⟩
    · exact sound.clearSub found kind ex rfl rfl fun _ => .inl rfl
    · rw [clearFlow_l2Flows]
      exact out
    · refine ⟨{ e with l2Flows := e.l2Flows.filter (· ≠ x) }, ?_, l2, fun y member => ?_⟩
      · rw [flows, if_neg ne, if_pos rfl, has]
        rfl
      · simp only [List.mem_filter] at member
        have := left y member.1
        grind
    · rw [flows, if_pos rfl]
    · intro k none
      rw [flows]
      grind

theorem Clearing.run {ids : List FlowId} (clearing : Clearing id s ids) :
    Clearing id (ids.foldl FlowTable.clearSubflow s) [] ∧
      (∀ x ∈ ids, (ids.foldl FlowTable.clearSubflow s).flows x = none) ∧
      ∀ k, s.flows k = none → (ids.foldl FlowTable.clearSubflow s).flows k = none := by
  induction ids generalizing s with
  | nil => exact ⟨clearing, by simp, fun k none => none⟩
  | cons x ids ih =>
    obtain ⟨clearing', gone, stays⟩ := clearing.next
    obtain ⟨done, others, stays'⟩ := ih clearing'
    refine ⟨done, fun y member => ?_, fun k none => stays' k (stays k none)⟩
    obtain rfl | member := List.mem_cons.mp member
    · exact stays' y gone
    · exact others y member

theorem Sound.free (sound : Sound s) {e : FlowEntry} (has : s.flows id = some e) (l2 : e.type = .l2)
    (alone : e.l2Flows = []) (out : id ∉ s.l2Flows) : Sound (s.free id) where
  listed := sound.listed.freeL2 has l2 alone out
  tracked h := by
    have flows (k : FlowId) : (s.free id).flows k = if k = id then none else s.flows k := by
      simp [FlowTable.free, Function.update_apply]
    refine (sound.tracked h).keep (by rfl) (by rfl) ?_ ?_
    · intro bound k ek owns hk kind hash
      rw [flows]
      have := FoeEntry.SameKey.refl ek.data
      grind
    · rintro bound some_ k ⟨ek, hk, kind, hash⟩
      rw [flows] at hk
      unfold Records
      grind

/-- The flow itself, or a subflow of it. -/
def PartOf (s : FlowTable) (id k : FlowId) : Prop :=
  k = id ∨ ∃ e, s.flows k = some e ∧ e.type = .l2Subflow ∧ e.baseFlow = id

/-- A flow is cleared, and freed with its subflows. -/
theorem Sound.clear (sound : Sound s) (user : s.hasUser id = true) :
    Sound (s.clear id) ∧ ∀ k, PartOf s id k → (s.clear id).flows k = none := by
  cases has : s.flows id with
  | none => simp [FlowTable.hasUser, has] at user
  | some e =>
    have notSub : e.type ≠ .l2Subflow := by simpa [FlowTable.hasUser, has] using user
    have dead (s : FlowTable) : (s.free id).flows id = none := by simp [FlowTable.free]
    simp only [FlowTable.clear, FlowTable.foeEntryClear, has]
    by_cases l2 : e.type = .l2
    · rw [if_pos l2]
      let s₁ : FlowTable := { s with l2Flows := s.l2Flows.filter (· ≠ id) }
      have listed : Listed s₁ := by
        obtain ⟨bucket, hashed, nodup, apart, table, sub, base⟩ := sound.listed
        exact ⟨bucket, hashed, nodup, apart, fun x member => table x (List.mem_filter.mp member).1,
          sub, base⟩
      have tracked : Tracked s₁ := fun h => (sound.tracked h).keep (by rfl) (by rfl)
        (fun _ k ek _ hk _ hash => ⟨ek, hk, rfl, hash, .refl _⟩) fun _ _ k record => record
      have clearing : Clearing id s₁ e.l2Flows :=
        ⟨⟨listed, tracked⟩, sound.onlySubflows has, by simp [s₁], e, has, l2, fun x member => member⟩
      obtain ⟨⟨sound', -, out, e', has', l2', left⟩, gone, -⟩ := clearing.run
      have alone : e'.l2Flows = [] := List.eq_nil_iff_forall_not_mem.mpr fun x member => by
        simpa using left x member
      refine ⟨sound'.free has' l2' alone out, ?_⟩
      rintro k (rfl | ⟨ek, hk, kind, rfl⟩)
      · exact dead _
      · obtain ⟨e'', has'', member⟩ := sound.listed.base k ek hk kind
        obtain rfl := Option.some.inj (has.symm.trans has'')
        have none := gone k member
        simp only [FlowTable.free, Function.update_apply]
        split_ifs
        · rfl
        · exact none
    · rw [if_neg l2]
      have l4 : e.type = .l4 := by cases type : e.type <;> simp_all
      refine ⟨⟨sound.listed.clearL4 has l4, fun h => (sound.tracked h).clearL4 has l4⟩, ?_⟩
      rintro k (rfl | ⟨ek, hk, kind, rfl⟩)
      · exact dead _
      · obtain ⟨e'', has'', member⟩ := sound.listed.base k ek hk kind
        have := (sound.listed.sub _ e'' has'' k member).1
        rw [Option.some.inj (has''.symm.trans has)] at this
        exact absurd this l2

end Clear

section Hardware

variable {hash : UInt16}

/-- The hardware makes another entry of a slot, which is not bound. -/
theorem Sound.age (sound : Sound s) {entry : FoeEntry} (unbound : ¬entry.Bound) :
    Sound { s with
      foeTable := Function.update s.foeTable hash entry
      writtenFor := Function.update s.writtenFor hash none } where
  listed := sound.listed.same rfl rfl rfl
  tracked h := by
    by_cases own : h = hash
    · subst own
      apply TrackedAt.unbound
      simpa using unbound
    · apply (sound.tracked h).keep
      · simp [own]
      · simp [own]
      · exact fun _ k ek _ hk _ hash => ⟨ek, hk, rfl, hash, .refl _⟩
      · exact fun _ _ k record => record

/-- The hardware writes to a bound entry, out of the fields that a flow is matched by. -/
theorem Sound.touch (sound : Sound s) {ib1 : UInt32} (bound : (s.foeTable hash).Bound) :
    Sound { s with
      foeTable := Function.update s.foeTable hash
        ((s.foeTable hash).setIb1 (~~~(ib1State ||| ib1PacketType ||| ib1Udp)) ib1) } where
  listed := sound.listed.same rfl rfl rfl
  tracked h := by
    by_cases own : h = hash
    · subst own
      intro id by_ _
      obtain ⟨some_, recorded, agrees⟩ := sound.tracked h id by_ bound
      refine ⟨some_, recorded, fun e has l4 => ?_⟩
      have same := (s.foeTable h).setIb1_sameKey (~~~(ib1State ||| ib1PacketType ||| ib1Udp)) ib1
        (by decide)
      simpa using same.trans (agrees e has l4)
    · apply (sound.tracked h).keep
      · rfl
      · simp [own]
      · exact fun _ k ek _ hk _ hash => ⟨ek, hk, rfl, hash, .refl _⟩
      · exact fun _ _ k record => record

end Hardware

section Runs

variable (netDsa : Bool)

/-- The flow is written to the table of L2 flows, or put on its bucket without a hash. -/
theorem Sound.commit (sound : Sound s) {id : FlowId} (fresh : s.flows id = none) (data : FoeEntry)
    (inserted : Bool) : Sound (s.commit id data inserted) := by
  have keeps (entry : FlowEntry) (entry_hash : entry.type = .l2 ∨ entry.hash = noHash)
      (s' : FlowTable) (flows : s'.flows = Function.update s.flows id (some entry))
      (foeTable : s'.foeTable = s.foeTable) (written : s'.writtenFor = s.writtenFor) : Tracked s' := by
    intro h
    refine (sound.tracked h).keep (by rw [written]) (by rw [foeTable]) ?_ ?_
    · intro bound k ek owns hk kind hash
      rw [flows, Function.update_apply]
      have := FoeEntry.SameKey.refl ek.data
      grind
    · rintro bound some_ k ⟨ek, hk, kind, hash⟩
      rw [flows, Function.update_apply] at hk
      unfold Records
      grind
  rw [FlowTable.commit]
  split_ifs
  · exact ⟨sound.listed.commitL2 fresh data, keeps _ (.inl rfl) _ rfl rfl rfl⟩
  · exact sound
  · exact ⟨sound.listed.commitL4 fresh data _, keeps _ (.inr rfl) _ rfl rfl rfl⟩

/-- A packet check for an entry that is not bound comes to a bucket that the walk leaves no bound
entry of behind. -/
def Keeps (s : FlowTable) : Event → Prop
  | .check _ hash _ _ =>
    hash.toNat < ppeEntries → ¬(s.foeTable hash).Bound →
      KeepsFlows s hash [] (s.foeFlow (bucketOf hash))
  | _ => True

instance (s : FlowTable) : ∀ event, Decidable (Keeps s event)
  | .check _ hash _ _ => inferInstanceAs (Decidable (hash.toNat < ppeEntries → _ → _))
  | .commit .. | .idle .. | .clear .. | .age .. | .touch .. => isTrue trivial

/-- A subflow is made of an entry that is no flow's, if there is memory for it. -/
theorem Sound.commitSubflow (sound : Sound s) {id : FlowId} {e : FlowEntry}
    (has : s.flows id = some e) (kind : e.type = .l2) {hash : UInt16} (some_ : hash ≠ noHash)
    (free : ∀ k, ¬Records s k hash) (now : UInt32) (fresh : Option FlowId) :
    Sound (s.commitSubflow hash now id e (fresh.filter fun sub => (s.flows sub).isNone)) := by
  cases given : fresh.filter fun sub => (s.flows sub).isNone with
  | none => exact sound
  | some sub =>
    have unused : s.flows sub = none := by
      simpa using (Option.filter_eq_some_iff.mp given).2
    constructor
    · exact (sound.listed.commitSubflow unused has kind hash).same rfl rfl rfl
    · exact sound.tracked.commitSubflow has kind unused some_ free now

theorem Sound.check (sound : Sound s) (skb : Option Skb) (hash : UInt16) (now : UInt32)
    (fresh : Option FlowId) (keeps : Keeps s (.check skb hash now fresh)) :
    Sound (s.checkSkb netDsa skb hash now fresh) := by
  rw [FlowTable.checkSkb]
  by_cases refused : ppeEntries ≤ hash.toNat ∨ (s.foeTable hash).Bound
  · rw [if_pos refused]
    exact sound
  · rw [if_neg refused]
    rw [not_or, not_le] at refused
    have some_ : hash ≠ noHash := by
      rintro rfl
      exact absurd refused.1 (by decide)
    have walked := (Walking.start sound.listed sound.tracked some_ refused.2).run
      (Since.start : Since s hash now _ _ _) some_ refused.2 (keeps refused.1 refused.2)
    obtain ⟨tracked, free⟩ := walked.done some_
    have listed := walked.listed
    change Listed (s.walk hash now).1 at listed
    change Tracked (s.walk hash now).1 at tracked
    change (s.walk hash now).2 = false → ∀ k, ¬Records (s.walk hash now).1 k hash at free
    generalize s.walk hash now = w at listed tracked free ⊢
    obtain ⟨s', found⟩ := w
    dsimp only at listed tracked free ⊢
    cases found with
    | true => exact ⟨listed, tracked⟩
    | false =>
      rw [if_neg Bool.false_ne_true]
      cases looked : skb.bind fun skb => (skb.vlan netDsa).bind (s'.lookupL2 skb) with
      | none => exact ⟨listed, tracked⟩
      | some id =>
        obtain ⟨_, -, _⟩ := Option.bind_eq_some_iff.mp looked
        obtain ⟨_, -, member⟩ := Option.bind_eq_some_iff.mp ‹_›
        obtain ⟨e, has, kind⟩ := listed.table id (List.mem_of_find?_eq_some member)
        dsimp only
        rw [has]
        exact Sound.commitSubflow ⟨listed, tracked⟩ has kind some_ (free rfl) now fresh

theorem Sound.step (sound : Sound s) (event : Event) (keeps : Keeps s event) :
    Sound (step netDsa s event) := by
  cases event with
  | commit id data inserted =>
    simp only [Filogic.Ppe.step]
    split_ifs with taken
    · exact sound
    · exact sound.commit (by simpa using taken) data inserted
  | check skb hash now fresh => exact sound.check netDsa skb hash now fresh keeps
  | idle id now =>
    simp only [Filogic.Ppe.step]
    split_ifs with user
    · exact sound.idle user
    · exact sound
  | clear id =>
    simp only [Filogic.Ppe.step]
    split_ifs with user
    · exact (sound.clear user).1
    · exact sound
  | age hash entry =>
    simp only [Filogic.Ppe.step]
    split_ifs with bound
    · exact sound
    · exact sound.age bound
  | touch hash ib1 =>
    simp only [Filogic.Ppe.step]
    split_ifs with bound
    · exact sound.touch bound
    · exact sound

end Runs

end Filogic.Ppe
